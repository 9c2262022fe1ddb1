import Mathlib.Algebra.Order.Ring.Rat
import SecretMirror.Cluster
import SecretMirror.Proofs.CacheView
import SecretMirror.Proofs.ExactTime
import SecretMirror.Proofs.Notes

/-!
# Which failures are reported

A run never fails: it reconciles and, if the reconciliation ends in a fault, wants a retry
(`run_eq`).  The fault is gone then, so it had better be reported before.

It is reported if the client was configured (`Connects`), wherever it has occurred: one line is
logged, about the fault that the reconciliation met, and this fault is counted once, and once under
its class (`ReportsOnce`).  A fault of the configuration itself is counted and logged by nobody: it
occurs before anything is measured, where faults are not recorded (`failed_run_reports_iff`,
`missing_configuration_is_silent`).
-/

namespace SecretMirror.Operator

open Program hiding bind ask

variable {τ : Type}

/-! ## Reports -/

/-- The note is a line, or it is about reconciliations and errors, as opposed to calls and writes.
So it is one of those by which a failed reconciliation is reported. -/
def Note.isReport : Note τ → Bool
  | .measured update => update.series.metric = .reconciliations ||
    update.series.metric = .reconciliationTime || update.series.metric = .errors
  | .logged _ => true
  | .emitted _ => false

theorem leavesNo_report_of_isRoutine {q : Request τ} (hq : q.IsRoutine) :
    q.LeavesNo Note.isReport := by
  refine hq.leavesNo fun update h => ?_
  rcases h with h | h
  · rw [Note.isReport, h]
    rfl
  · rw [Note.isReport, h]
    rfl

theorem leavesNo_report_of_countsWrite {q : Request τ} (h : q.CountsWrite) :
    q.LeavesNo Note.isReport := by
  cases q with
  | measure update =>
    have hmetric : update.series.metric = .writes := h
    show Note.isReport (.measured update) = false
    rw [Note.isReport, hmetric]
    rfl
  | _ => exact h.elim

variable [Time τ] {trigger : String} {xs ys zs : List (Exchange (requests τ) (Fault τ))}

/-- A synchronisation reports nothing itself: all that it counts is calls and writes. -/
theorem asksOnly_sync_leavesNo_report (rate : τ) :
    (sync rate {}).AsksOnly (Request.LeavesNo (τ := τ) Note.isReport) :=
  asksOnly_sync (fun _ => leavesNo_report_of_isRoutine) (fun _ => trivial) (fun _ => trivial)
    (fun _ => trivial) (fun _ => leavesNo_report_of_countsWrite) (fun _ => rfl)
    (fun _ _ => trivial) (fun _ _ => trivial) (fun _ _ _ => trivial) rate

/-- A reconciliation through a configured client reports what happens around its synchronisation. -/
theorem enters_report (tuning : Tuning τ) (trigger : String) :
    (reconcileConnected tuning (.text trigger)).Enters IsReliable (noted Note.isReport)
      (Accounts trigger Note.isReport fun es _ => es = []) :=
  enters_reconcileConnected (fun _ => id)
    ((asksOnly_sync_leavesNo_report tuning.rate).enters fun _ => noted_eq_none) trigger

/-! ## What a failed reconciliation reports -/

/-- A fault is reported once: one line is logged, about an error, and one reconciliation that failed
and one error of the class of the fault are counted.  What else was counted for other reasons or
classes does not matter here. -/
structure ReportsOnce (trigger : String) (fault : Fault τ)
    (xs : List (Exchange (requests τ) (Fault τ))) : Prop where
  logged : ∃ line, lines xs = [line] ∧ failureLine trigger fault = .ok line ∧
    line.level = Log.errorLevel
  counted : Metrics.amounts (updates xs) (.reconciliations trigger "error") = [1]
  classed : Metrics.amounts (updates xs) (.errors fault.typeName) = [1]

/-- Nothing is logged, and nothing about reconciliations is counted or timed.  So nobody can learn
from the log or the metrics that a reconciliation was begun. -/
structure IsSilent (xs : List (Exchange (requests τ) (Fault τ))) : Prop where
  logged : lines xs = []
  measured : ∀ s, Note.isReport (.measured (.add s (1 : τ))) = true →
    Metrics.amounts (updates xs) s = []

/-- The client was configured: what was asked begins with configurations of which one has
succeeded. -/
def Connects (xs : List (Exchange (requests τ) (Fault τ))) : Prop :=
  ∃ cs, cs <+: xs ∧ (connect (τ := τ)).Completes cs (.ok ())

omit [Time τ] in
theorem lines_eq (xs : List (Exchange (requests τ) (Fault τ))) :
    lines xs = (xs.filterMap (noted Note.isReport)).filterMap Note.line? := by
  refine filterMap_note? (fun note hnote => ?_) xs
  cases note with
  | logged line => cases hnote
  | _ => rfl

omit [Time τ] in
theorem amounts_updates {s : Series}
    (hs : ∀ amount, Note.isReport (.measured (.add s amount) : Note τ) = true)
    (xs : List (Exchange (requests τ) (Fault τ))) : Metrics.amounts (updates xs) s =
      (xs.filterMap (noted Note.isReport)).filterMap fun note =>
        note.update?.bind (Metrics.Update.amountFor? s) := by
  unfold Metrics.amounts updates
  rw [List.filterMap_filterMap]
  refine filterMap_note? (fun note hnote => ?_) xs
  cases note with
  | measured update =>
    cases update with
    | register t => rfl
    | add t amount =>
      have hne : t ≠ s := by
        rintro rfl
        rw [hs amount] at hnote
        cases hnote
      exact if_neg hne
  | _ => rfl

theorem isSilent_of_nil (h : xs.filterMap (noted Note.isReport) = []) : IsSilent xs where
  logged := by rw [lines_eq, h]; rfl
  measured s hs := by rw [amounts_updates (fun _ => hs), h]; rfl

theorem reportsOnce_of_accounts {passed : Fault τ}
    (h : Accounts trigger Note.isReport (fun es _ => es = [])
      (xs.filterMap (noted Note.isReport)) (.error passed)) :
    ∃ fault, IsPassedOn fault passed ∧ ReportsOnce trigger fault xs := by
  generalize hnotes : xs.filterMap (noted Note.isReport) = notes at h
  cases h with
  | @failed _ fault _ line time hsync hpassed hline =>
    subst hsync
    have hfilter : ([] : List (Note τ)) ++ (failureNotes trigger fault line time).filter
        Note.isReport = failureNotes trigger fault line time := rfl
    rw [hfilter] at hnotes
    obtain ⟨line', hline', hlevel⟩ := exists_failureLine trigger fault
    obtain rfl : line = line' := Except.ok.inj (hline.symm.trans hline')
    refine ⟨fault, hpassed, ⟨line, ?_, hline, hlevel⟩, ?_, ?_⟩
    · rw [lines_eq, hnotes]
      rfl
    · rw [amounts_updates fun _ => rfl, hnotes]
      simp [failureNotes, Note.update?, Metrics.Update.amountFor?, Series.reconciliations,
        Series.errors, Series.reconciliationTime]
    · rw [amounts_updates fun _ => rfl, hnotes]
      simp [failureNotes, Note.update?, Metrics.Update.amountFor?, Series.reconciliations,
        Series.errors, Series.reconciliationTime]

/-! ## Runs -/

theorem scheduleRetry_eq (tuning : Tuning τ) (delay : τ) : scheduleRetry tuning delay = (do
    let time ← now
    ask (.schedule (.post (time + delay)))
    ask (.schedule .wake)) := by
  unfold scheduleRetry Resync.scheduleRetry Resync.now Resync.step
  rw [interpret_bind, interpret_request]
  congr 1
  funext time
  rw [interpret_bind, interpret_request]
  congr 1

/-- A run is a reconciliation and, if it fails, the wish for a retry.  It fails itself only if that
wish does. -/
theorem run_eq (tuning : Tuning τ) (trigger : Value) : run tuning trigger =
    (reconcile tuning trigger >>= fun _ => pure ()).recover fun fault =>
      scheduleRetry tuning (Resync.retryDelay tuning.timing fault) := by
  unfold run Resync.run recover
  rw [interpret_outcome, interpret_request]
  show (reconcile tuning trigger >>= fun _ => pure ()).outcome _ = _
  congr 1
  funext r
  cases r with
  | ok _ => rfl
  | error fault => rfl

/-- A retry is wanted some time from now: the clock is read, the retry is posted, and the loop is
woken. -/
def WantsRetry (delay : τ) (xs : List (Exchange (requests τ) (Fault τ))) : Prop :=
  ∃ time, xs = [⟨.now, .ok time⟩, ⟨.schedule (.post (time + delay)), .ok ()⟩,
    ⟨.schedule .wake, .ok ()⟩]

theorem wantsRetry_of_completes {tuning : Tuning τ} {delay : τ} {r : Except (Fault τ) Unit}
    (h : (scheduleRetry tuning delay).Completes xs r) (hreliable : ∀ x ∈ xs, IsReliable x) :
    r = .ok () ∧ WantsRetry delay xs := by
  rw [scheduleRetry_eq] at h
  rcases completes_request_bind_iff.1 h with ⟨fault, rfl, -⟩ | ⟨time, ys, rfl, h₁⟩
  · exact (hreliable _ (List.mem_cons_self ..)).elim
  obtain ⟨-, hreliable⟩ := List.forall_mem_cons.1 hreliable
  rcases completes_request_bind_iff.1 h₁ with ⟨fault, rfl, -⟩ | ⟨posted, zs, rfl, h₂⟩
  · exact (hreliable _ (List.mem_cons_self ..)).elim
  obtain ⟨-, hreliable⟩ := List.forall_mem_cons.1 hreliable
  obtain rfl := completes_request_iff.1 h₂
  cases r with
  | error fault => exact (hreliable _ (List.mem_cons_self ..)).elim
  | ok woken => exact ⟨rfl, time, rfl⟩

theorem filterMap_noted_of_wantsRetry {delay : τ} (h : WantsRetry delay xs)
    (wanted : Note τ → Bool) : xs.filterMap (noted wanted) = [] := by
  obtain ⟨time, rfl⟩ := h
  rfl

/-- A failed reconciliation is the first part of its run, and the wish for a retry is the rest,
after the delay that the fault asks for. -/
theorem wantsRetry_of_failed {tuning : Tuning τ} {trigger : Value} {passed : Fault τ}
    {r : Except (Fault τ) Unit} (hrun : (run tuning trigger).Completes (ys ++ zs) r)
    (hreliable : ∀ x ∈ ys ++ zs, IsReliable x)
    (hfailed : (reconcile tuning trigger).Completes ys (.error passed)) :
    r = .ok () ∧ WantsRetry (Resync.retryDelay tuning.timing passed) zs := by
  rw [run_eq, recover] at hrun
  obtain ⟨ys', a, zs', hfirst, hlater, hsplit⟩ := completes_outcome_iff.1 hrun
  obtain ⟨b, hreconciled, rfl⟩ := completes_bind_pure_iff.1 hfirst
  obtain ⟨rfl, rfl⟩ := hfailed.eq_of_append hreconciled hsplit
  obtain rfl := List.append_cancel_left hsplit
  exact wantsRetry_of_completes hlater (List.forall_mem_append.1 hreliable).2

/-! ## Which failures are reported -/

omit [Time τ] in
theorem connects_iff {cs : List (Exchange (requests τ) (Fault τ))} {r : Except (Fault τ) Unit}
    (h : (connect (τ := τ)).Completes cs r) (hfirst : cs <+: xs) : Connects xs ↔ r = .ok () := by
  constructor
  · rintro ⟨cs', ⟨us, hus⟩, h'⟩
    obtain ⟨vs, hvs⟩ := hfirst
    obtain ⟨-, rfl⟩ := h.eq_of_append h' (hvs.trans hus.symm)
    rfl
  · rintro rfl
    exact ⟨cs, hfirst, h⟩

theorem not_reportsOnce_of_isSilent {fault : Fault τ} (h : IsSilent xs) :
    ¬ ReportsOnce trigger fault xs := by
  rintro ⟨⟨line, hline, -⟩, -, -⟩
  rw [h.logged] at hline
  cases hline

/-- The reconciliation of a run has failed, in whatever surroundings.  Then the run wants a retry
and does not fail itself.  The fault is reported just if the client was configured, and then exactly
once; otherwise there is no trace of it in the log and in the metrics. -/
theorem failed_run_reports_iff {tuning : Tuning τ} {trigger : String} {passed : Fault τ}
    {r : Except (Fault τ) Unit} (hrun : (run tuning (.text trigger)).Completes (ys ++ zs) r)
    (hreliable : ∀ x ∈ ys ++ zs, IsReliable x)
    (hfailed : (reconcile tuning (.text trigger)).Completes ys (.error passed)) :
    r = .ok () ∧ WantsRetry (Resync.retryDelay tuning.timing passed) zs ∧
      ((∃ fault, IsPassedOn fault passed ∧ ReportsOnce trigger fault (ys ++ zs)) ↔ Connects ys) ∧
      (¬ Connects ys → IsSilent (ys ++ zs)) := by
  obtain ⟨hr, hretry⟩ := wantsRetry_of_failed hrun hreliable hfailed
  have hnotes : (ys ++ zs).filterMap (noted Note.isReport) =
      ys.filterMap (noted Note.isReport) := by
    rw [List.filterMap_append, filterMap_noted_of_wantsRetry hretry, List.append_nil]
  have hsilent : (connect (τ := τ)).Enters IsReliable (noted Note.isReport) fun es _ => es = [] :=
    (asksOnly_connect (P := Request.LeavesNo Note.isReport) trivial trivial).enters
      fun _ => noted_eq_none
  have hys := (List.forall_mem_append.1 hreliable).1
  refine ⟨hr, hretry, ?_⟩
  -- A reconciliation fails for want of a client or after that, and only then it is reported.
  rcases completes_bind_iff.1 hfailed with
    ⟨fault, hconnect, -⟩ | ⟨cs, _, ws, hconnect, hrest, rfl⟩
  · have hnot : ¬ Connects ys := by
      rw [connects_iff hconnect (List.prefix_refl ys)]
      exact nofun
    have hnone : IsSilent (ys ++ zs) := isSilent_of_nil (hnotes.trans (hsilent ys _ hconnect hys))
    refine ⟨⟨?_, fun h => absurd h hnot⟩, fun _ => hnone⟩
    rintro ⟨fault, -, hreports⟩
    exact absurd hreports (not_reportsOnce_of_isSilent hnone)
  · obtain ⟨hcs, hws⟩ := List.forall_mem_append.1 hys
    have hconnects : Connects (cs ++ ws) :=
      (connects_iff hconnect (List.prefix_append cs ws)).2 rfl
    have hreports := enters_report tuning trigger ws _ hrest hws
    have hrest' : (cs ++ ws).filterMap (noted Note.isReport) =
        ws.filterMap (noted Note.isReport) := by
      rw [List.filterMap_append, hsilent cs _ hconnect hcs, List.nil_append]
    rw [← hrest', ← hnotes] at hreports
    refine ⟨⟨fun _ => hconnects, fun _ => ?_⟩, fun h => absurd hconnects h⟩
    exact reportsOnce_of_accounts hreports

/-! ## In a cluster -/

open Cluster in
theorem isReliable_of_mem_trace (timing : Resync.Timing τ) {α : Type} (p : Task τ α)
    (c : Cluster τ) : ∀ x ∈ p.trace (handle timing) c, IsReliable x := by
  refine forall_mem_trace (fun q c => ?_) p c
  cases q with
  | cacheForget space name =>
    cases hchange : c.cache.forgetValues space name with
    | ok cache =>
      show IsReliable ⟨.cacheForget space name, (c.changeCache _).1⟩
      rw [hchange]
      trivial
    | error reason =>
      show IsReliable ⟨.cacheForget space name, (c.changeCache _).1⟩
      rw [hchange]
      exact Cache.ofValues_ne_of_forgetValues hchange
  | _ => trivial

theorem exists_trace_run (timing : Resync.Timing τ) (tuning : Tuning τ) (trigger : Value)
    (c : Cluster τ) : ∃ zs, (run tuning trigger).trace (Cluster.handle timing) c =
      (reconcile tuning trigger).trace (Cluster.handle timing) c ++ zs := by
  rw [run_eq, recover, trace_outcome, trace_bind, List.append_assoc]
  exact ⟨_, rfl⟩

namespace Example

/-- The settings of an operator, with exact numbers in the place of doubles. -/
def tuning : Tuning ℚ := ⟨8, 5, ⟨300, 30⟩⟩

/-- A cluster in which every read times out, so the reconciliation fails inside its
synchronisation. -/
def unreadable : Cluster ℚ :=
  { Cluster.new 1000 30 with
    disturbances := fun
      | .read => some { fault := .plain .timeout "timed out" }
      | _ => none }

/-- A cluster in which the client has no configuration, neither from inside nor from a file. -/
def unconfigured : Cluster ℚ :=
  { Cluster.new 1000 30 with
    clientFaults := fun _ => some (.plain .config "Service host/port is not set.") }

end Example

/-- A read that times out is reported, although the time-out is no answer of the API. -/
theorem failed_run_reports_timeout :
    Connects ((reconcile Example.tuning (.text "timer")).trace (Cluster.handle ⟨300, 30⟩)
      Example.unreadable) ∧
    ∃ fault, IsPassedOn fault (.plain .timeout "timed out") ∧ ReportsOnce "timer" fault
      ((run Example.tuning (.text "timer")).trace (Cluster.handle ⟨300, 30⟩)
        Example.unreadable) := by
  have hconnect : (connect (τ := ℚ)).Completes [⟨.clusterConfig, .ok ()⟩] (.ok ()) :=
    .next (.none _)
  have hconnects : Connects ((reconcile Example.tuning (.text "timer")).trace
      (Cluster.handle ⟨300, 30⟩) Example.unreadable) := ⟨_, ⟨_, rfl⟩, hconnect⟩
  have hresult : ((reconcile Example.tuning (.text "timer")).run (Cluster.handle ⟨300, 30⟩)
      Example.unreadable).1 = .error (.plain .timeout "timed out") := by
    with_unfolding_all rfl
  obtain ⟨zs, hzs⟩ := exists_trace_run ⟨300, 30⟩ Example.tuning (.text "timer") Example.unreadable
  have hrun := completes_trace (Cluster.handle ⟨300, 30⟩) (run Example.tuning (.text "timer"))
    Example.unreadable
  have hreliable := isReliable_of_mem_trace ⟨300, 30⟩ (run Example.tuning (.text "timer"))
    Example.unreadable
  have hfailed := completes_trace (Cluster.handle ⟨300, 30⟩)
    (reconcile Example.tuning (.text "timer")) Example.unreadable
  rw [hzs] at hrun hreliable ⊢
  rw [hresult] at hfailed
  exact ⟨hconnects, (failed_run_reports_iff hrun hreliable hfailed).2.2.1.2 hconnects⟩

/-- Not every failure is reported: without a configuration of the client there is nothing in the log
and in the metrics, run for run, while retries go on. -/
theorem missing_configuration_is_silent :
    ¬ ∀ (tuning : Tuning ℚ) (trigger : String) (ys zs : List (Exchange (requests ℚ) (Fault ℚ)))
      (passed : Fault ℚ) (r : Except (Fault ℚ) Unit),
      (run tuning (.text trigger)).Completes (ys ++ zs) r →
      (∀ x ∈ ys ++ zs, IsReliable x) →
      (reconcile tuning (.text trigger)).Completes ys (.error passed) →
      ∃ fault, IsPassedOn fault passed ∧ ReportsOnce trigger fault (ys ++ zs) := by
  intro h
  have hresult : ((reconcile Example.tuning (.text "timer")).run (Cluster.handle ⟨300, 30⟩)
      Example.unconfigured).1 = .error (.plain .config "Service host/port is not set.") := rfl
  obtain ⟨zs, hzs⟩ := exists_trace_run ⟨300, 30⟩ Example.tuning (.text "timer")
    Example.unconfigured
  have hrun := completes_trace (Cluster.handle ⟨300, 30⟩) (run Example.tuning (.text "timer"))
    Example.unconfigured
  have hreliable := isReliable_of_mem_trace ⟨300, 30⟩ (run Example.tuning (.text "timer"))
    Example.unconfigured
  have hfailed := completes_trace (Cluster.handle ⟨300, 30⟩)
    (reconcile Example.tuning (.text "timer")) Example.unconfigured
  have hsilent : lines ((run Example.tuning (.text "timer")).trace (Cluster.handle ⟨300, 30⟩)
    Example.unconfigured) = [] := rfl
  rw [hzs] at hrun hreliable hsilent
  rw [hresult] at hfailed
  obtain ⟨fault, -, ⟨line, hline, -⟩, -⟩ := h _ _ _ _ _ _ hrun hreliable hfailed
  rw [hsilent] at hline
  cases hline

end SecretMirror.Operator
