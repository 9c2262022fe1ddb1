import SecretMirror.Proofs.Attempts
import SecretMirror.Proofs.Counters
import SecretMirror.Proofs.Wire.RoundTrip

/-!
# What is counted of the calls of the API

A record of the metrics and the attempts it tells of add up (`Tallies`): each attempt is timed once,
and counted once unless it was a read that failed otherwise than by an answer of the API.  This
holds of the attempt in one access and is kept when accesses follow one another, so it holds of any
number of them (`Visit.tallies_record`).  What adds up, and by how much it falls short, is what the
metrics show of the calls (`ShowsCalls`, `metrics_show_calls`).  Of the surroundings nothing is
assumed but that the clock can be read and that counting never fails.

In a cluster every sequence of accesses is such a sequence, and its record is what the metrics grow
by (`metrics_accessAll`).
-/

namespace SecretMirror.Operator

open Metrics
open Program hiding bind ask

variable {τ : Type}

/-! ## What adds up -/

/-- The labels are those of calls by this name, with any result but that no call was needed. -/
def isCallOf (call : ApiCall) (labels : List String) : Bool :=
  labels[1]? == some call.name && labels[2]? != some "cache_hit"

def countsCalls (u : Update τ) : Bool :=
  u.series.metric = .apiCalls || u.series.metric = .writes

/-- A record and the attempts that it tells of add up.  Each attempt is timed and, unless it is
silent, counted; a write is counted a second time among the writes. -/
structure Tallies [Time τ] (record : List (Update τ)) (attempts : List (Attempt τ)) : Prop where
  /-- Every attempt is timed once. -/
  timed : ∀ call : ApiCall, observations record (.apiCallTime call.name) =
    attempts.countP (Attempt.isAt call)
  /-- Every attempt is counted once, but for those that are silent. -/
  counted : ∀ call, record.countP (Update.isAbout .apiCalls (isCallOf call)) +
    attempts.countP (Attempt.isSilentAt call) = attempts.countP (Attempt.isAt call)
  /-- Every failed attempt is counted as an error, but for those that are silent. -/
  failed : ∀ call : ApiCall, (record.countP fun u => u.series = .apiCalls call.name "error") +
    attempts.countP (Attempt.isSilentAt call) = attempts.countP (Attempt.hasFailedAt call)
  /-- Calls that write are counted once more. -/
  written : ∀ (operation : Operation) (result : String),
    (record.countP fun u => u.series = .writes operation.name result) =
      record.countP fun u => u.series = .apiCalls operation.callName result
  single : ∀ u ∈ record, countsCalls u = true → u = .add u.series 1

section Tallies

variable [Time τ] {record record' : List (Update τ)} {attempts attempts' : List (Attempt τ)}

theorem tallies_nil : Tallies (τ := τ) [] [] where
  timed _ := rfl
  counted _ := rfl
  failed _ := rfl
  written _ _ := rfl
  single := nofun

/-- One record may follow another. -/
theorem Tallies.append (h : Tallies record attempts) (h' : Tallies record' attempts') :
    Tallies (record ++ record') (attempts ++ attempts') where
  timed call := by
    have h₁ := h.timed call
    have h₂ := h'.timed call
    rw [observations_eq_countP] at h₁ h₂ ⊢
    rw [List.countP_append, List.countP_append, h₁, h₂]
  counted call := by
    have h₁ := h.counted call
    have h₂ := h'.counted call
    simp only [List.countP_append]
    omega
  failed call := by
    have h₁ := h.failed call
    have h₂ := h'.failed call
    simp only [List.countP_append]
    omega
  written operation result := by
    rw [List.countP_append, List.countP_append, h.written, h'.written]
  single u hu := by
    rcases List.mem_append.1 hu with hu | hu
    · exact h.single u hu
    · exact h'.single u hu

theorem Tallies.of_perm (h : Tallies record attempts) (hperm : record'.Perm record) :
    Tallies record' attempts where
  timed call := by
    rw [observations_eq_countP, hperm.countP_eq, ← observations_eq_countP, h.timed]
  counted call := by rw [hperm.countP_eq, h.counted]
  failed call := by rw [hperm.countP_eq, h.failed]
  written operation result := by rw [hperm.countP_eq, hperm.countP_eq, h.written]
  single u hu := h.single u (hperm.mem_iff.1 hu)

/-- A hit of the cache is no call. -/
theorem tallies_hit : Tallies (τ := τ) [.add (.apiCalls "get_secret" "cache_hit") 1] [] where
  timed call := by cases call with
    | read => rfl
    | write operation => cases operation <;> rfl
  counted call := by cases call with
    | read => rfl
    | write operation => cases operation <;> rfl
  failed call := by cases call with
    | read => rfl
    | write operation => cases operation <;> rfl
  written operation result := by
    cases operation <;> simp [Update.series, Series.writes, Series.apiCalls, Operation.callName]
  single u hu _ := by
    obtain rfl := List.mem_singleton.1 hu
    rfl

omit [Time τ] in
theorem result?_ne_hit (attempt : Attempt τ) : attempt.result? ≠ some "cache_hit" := by
  obtain ⟨call, outcome⟩ := attempt
  cases outcome with
  | ok answer => cases call <;> simp [Attempt.result?]
  | error fault =>
    cases call with
    | write operation => simp [Attempt.result?]
    | read =>
      rw [Attempt.result?]
      split
      · split <;> simp
      · simp

omit [Time τ] in
/-- Failed attempts are those that are counted as errors or not at all. -/
theorem hasFailedAt_eq (call : ApiCall) (attempt : Attempt τ) : attempt.hasFailedAt call =
    (attempt.isAt call && (attempt.result?.isNone || attempt.result? == some "error")) := by
  obtain ⟨call', outcome⟩ := attempt
  unfold Attempt.hasFailedAt
  congr 1
  cases outcome with
  | ok answer => cases call' <;> rfl
  | error fault =>
    cases call' with
    | write operation => rfl
    | read =>
      show (!saysAbsent fault) = _
      rw [saysAbsent, Attempt.result?]
      cases fault.isApi <;> cases fault.statusOf.isNumber 404 <;> rfl

/-- What is counted of a result is one call, under this result. -/
theorem countP_counts (call call' : ApiCall) {result : String} (h : result ≠ "cache_hit") :
    (call.counts (τ := τ) result).countP (Update.isAbout .apiCalls (isCallOf call')) =
        (if call = call' then 1 else 0) ∧
      ((call.counts (τ := τ) result).countP fun u => u.series = .apiCalls call'.name "error") =
        (if call = call' ∧ result = "error" then 1 else 0) := by
  cases call <;>
    simp [ApiCall.counts, Update.isAbout, isCallOf, Update.series, Series.apiCalls, Series.writes,
      List.countP_cons, h]

theorem countP_counts_written (call : ApiCall) (result : String) (operation : Operation)
    (wanted : String) :
    ((call.counts (τ := τ) result).countP fun u => u.series = .writes operation.name wanted) =
      (call.counts (τ := τ) result).countP fun u =>
        u.series = .apiCalls operation.callName wanted := by
  cases call with
  | read =>
    cases operation <;>
      simp [ApiCall.counts, ApiCall.name, Operation.callName, Update.series, Series.apiCalls,
        Series.writes]
  | write operation' =>
    cases operation <;> cases operation' <;>
      simp [ApiCall.counts, ApiCall.name, Operation.callName, Operation.name, Update.series,
        Series.apiCalls, Series.writes, List.countP_cons]

/-- What is counted of a result is not timed, and every count is a one. -/
theorem counts_single (call : ApiCall) (result : String) :
    ∀ u ∈ call.counts (τ := τ) result, u.series.metric ≠ .apiCallTime ∧ u = .add u.series 1 := by
  intro u hu
  cases call with
  | read =>
    obtain rfl := List.mem_singleton.1 hu
    exact ⟨nofun, rfl⟩
  | write operation =>
    simp only [ApiCall.counts, List.mem_cons, List.not_mem_nil, or_false] at hu
    rcases hu with rfl | rfl
    · exact ⟨nofun, rfl⟩
    · exact ⟨nofun, rfl⟩

/-- Only the counts matter to what is not about the time. -/
theorem countP_updates {p : Update τ → Bool} (attempt : Attempt τ) (time : τ)
    (hp : p (.add (.apiCallTime attempt.call.name) time) = false) :
    (attempt.updates time).countP p =
      (attempt.result?.toList.flatMap attempt.call.counts).countP p := by
  rw [Attempt.updates, List.countP_cons_of_neg (by rw [hp]; exact Bool.false_ne_true)]

theorem tallies_attempt (attempt : Attempt τ) (time : τ) :
    Tallies (attempt.updates time) [attempt] where
  -- No series of a count is a series of a time, so only the measurement itself adds to the times.
  timed call := by
    have hcounts : (attempt.result?.toList.flatMap attempt.call.counts).countP
        (fun u : Update τ => (u.amountFor? (.apiCallTime call.name)).isSome) = 0 := by
      rw [List.countP_eq_zero]
      intro u hu hamount
      obtain ⟨result, -, hu⟩ := List.mem_flatMap.1 hu
      refine (counts_single attempt.call result u hu).1 ?_
      rw [series_of_amountFor? hamount]
      rfl
    rw [observations_eq_countP, Attempt.updates, List.countP_cons, hcounts]
    simp [Update.amountFor?, Series.apiCallTime, Attempt.isAt, List.countP_cons]
  counted call := by
    rw [countP_updates attempt time rfl]
    cases hresult : attempt.result? with
    | none => simp [Attempt.isSilentAt, hresult, List.countP_cons]
    | some result =>
      have hne : result ≠ "cache_hit" := fun h => result?_ne_hit attempt (h ▸ hresult)
      simp [Attempt.isSilentAt, Attempt.isAt, hresult, List.countP_cons,
        (countP_counts attempt.call call hne).1]
  failed call := by
    rw [countP_updates attempt time rfl]
    cases hresult : attempt.result? with
    | none => simp [hasFailedAt_eq, Attempt.isSilentAt, hresult, List.countP_cons]
    | some result =>
      have hne : result ≠ "cache_hit" := fun h => result?_ne_hit attempt (h ▸ hresult)
      simp [hasFailedAt_eq, Attempt.isSilentAt, Attempt.isAt, hresult, List.countP_cons,
        (countP_counts attempt.call call hne).2]
  written operation wanted := by
    rw [countP_updates attempt time rfl, countP_updates attempt time rfl]
    cases attempt.result? with
    | none => rfl
    | some result =>
      rw [Option.toList_some, List.flatMap_singleton]
      exact countP_counts_written attempt.call result operation wanted
  single u hu hcounts := by
    rcases List.mem_cons.1 hu with rfl | hu
    · cases hcounts
    · obtain ⟨result, -, hu⟩ := List.mem_flatMap.1 hu
      exact (counts_single attempt.call result u hu).2

end Tallies

/-! ## Sequences of accesses -/

/-- An access that was gone through: what was asked and answered in it, and what was attempted.  The
surroundings are not part of it, so a sequence of accesses may be from anywhere. -/
structure Visit (τ : Type) [Time τ] where
  rate : τ
  access : Access
  exchanges : List (Exchange (requests τ) (Fault τ))
  attempt? : Option (Attempt τ)
  goes : access.Goes rate exchanges attempt?

namespace Visit

/-- The changes of the metrics in a sequence of accesses. -/
def record [Time τ] (visits : List (Visit τ)) : List (Update τ) :=
  visits.flatMap fun visit => Operator.updates visit.exchanges

def attempts [Time τ] (visits : List (Visit τ)) : List (Attempt τ) :=
  visits.flatMap fun visit => visit.attempt?.toList

variable [Time τ]

/-- One access adds up. -/
theorem tallies (visit : Visit τ) (hreliable : ∀ x ∈ visit.exchanges, IsReliable x) :
    Tallies (Operator.updates visit.exchanges) visit.attempt?.toList := by
  obtain ⟨rate, access, exchanges, attempt?, goes⟩ := visit
  have hupdates := goes.updates_perm hreliable
  cases attempt? with
  | some attempt =>
    obtain ⟨time, hperm⟩ := hupdates
    exact (tallies_attempt attempt time).of_perm hperm
  | none =>
    rcases hupdates with hnothing | hhit
    · rw [hnothing]
      exact tallies_nil
    · rw [hhit]
      exact tallies_hit

theorem tallies_record {visits : List (Visit τ)}
    (hreliable : ∀ visit ∈ visits, ∀ x ∈ visit.exchanges, IsReliable x) :
    Tallies (record visits) (attempts visits) := by
  induction visits with
  | nil => exact tallies_nil
  | cons visit visits ih =>
    obtain ⟨hfirst, hlater⟩ := List.forall_mem_cons.1 hreliable
    exact (visit.tallies hfirst).append (ih hlater)

end Visit

/-! ## What the metrics show of the calls -/

section Exact

variable {K : Type} [Field K] [LinearOrder K] {record : List (Update K)}
  {attempts : List (Attempt K)}

/-- What the metrics show of the calls of the API, against the attempts that were made. -/
structure ShowsCalls (record : List (Update K)) (attempts : List (Attempt K)) : Prop where
  /-- For each call, as many times are measured as attempts were made. -/
  timed : ∀ call : ApiCall, observations record (.apiCallTime call.name) =
    attempts.countP (Attempt.isAt call)
  /-- As many calls are counted as are timed, less those whose attempts were silent. -/
  counted : ∀ call : ApiCall, sumOver record .apiCalls (isCallOf call) +
    (attempts.countP (Attempt.isSilentAt call) : K) =
      (observations record (.apiCallTime call.name) : K)
  /-- All calls are counted that are timed just if no attempt was silent. -/
  counted_iff : ∀ call : ApiCall, sumOver record .apiCalls (isCallOf call) =
    (observations record (.apiCallTime call.name) : K) ↔
      ∀ attempt ∈ attempts, attempt.isSilentAt call = false
  /-- All failed attempts are counted as errors, less those that were silent. -/
  failed : ∀ call : ApiCall, total record (.apiCalls call.name "error") +
    (attempts.countP (Attempt.isSilentAt call) : K) =
      (attempts.countP (Attempt.hasFailedAt call) : K)
  /-- Calls that write are counted as writes with the same results. -/
  written : ∀ (operation : Operation) (result : String),
    total record (.writes operation.name result) =
      total record (.apiCalls operation.callName result)

theorem Tallies.showsCalls [IsStrictOrderedRing K] (h : Tallies record attempts) :
    ShowsCalls record attempts := by
  have hsum : ∀ call : ApiCall, sumOver record .apiCalls (isCallOf call) =
      (record.countP (Update.isAbout .apiCalls (isCallOf call)) : K) := fun call =>
    sumOver_eq_countP (fun u hu hmetric => h.single u hu (by simp [countsCalls, hmetric])) _
  have htotal : ∀ s : Series, s.metric = .apiCalls ∨ s.metric = .writes →
      total record s = ((record.countP fun u => u.series = s : ℕ) : K) := by
    refine fun s hs => total_eq_countP fun u hu hseries => ?_
    rw [← hseries] at hs ⊢
    exact h.single u hu (by simpa [countsCalls] using hs)
  refine ⟨h.timed, fun call => ?_, fun call => ?_, fun call => ?_, fun operation result => ?_⟩
  · rw [hsum, h.timed, ← Nat.cast_add, h.counted]
  · have hcounted := h.counted call
    rw [hsum, h.timed, Nat.cast_inj]
    have hsilent : attempts.countP (Attempt.isSilentAt call) = 0 ↔
        ∀ attempt ∈ attempts, attempt.isSilentAt call = false := by
      simp [List.countP_eq_zero]
    rw [← hsilent]
    omega
  · rw [htotal _ (.inl rfl), ← Nat.cast_add, h.failed]
  · rw [htotal _ (.inr rfl), htotal _ (.inl rfl), h.written]

/-- Whatever was looked up and written, and whatever has failed, the metrics show every attempt once
by its time, and once by its result unless it was a read that failed otherwise than by an answer of
the API. -/
theorem metrics_show_calls [IsStrictOrderedRing K] {visits : List (Visit K)}
    (hreliable : ∀ visit ∈ visits, ∀ x ∈ visit.exchanges, IsReliable x) :
    ShowsCalls (Visit.record visits) (Visit.attempts visits) :=
  (Visit.tallies_record hreliable).showsCalls

end Exact

/-! ## In a cluster -/

section Cluster

open Cluster

variable [Time τ] (timing : Resync.Timing τ) (rate : τ)

/-- An access in a cluster, with the attempt that is made there. -/
def Access.visitIn (access : Access) (c : Cluster τ) : Visit τ :=
  match h : access.prepare.run (handle timing) c with
  | (.ok (some (start, call)), d) =>
    let tried := (spaced rate call).run (handle timing) d
    { rate := rate
      access := access
      exchanges := access.prepare.trace (handle timing) c ++
        ((spaced rate call).trace (handle timing) d ++
          (access.conclude start tried.1).trace (handle timing) tried.2)
      attempt? := some ⟨access.call, tried.1⟩
      goes := by
        have hprepared := completes_trace (handle timing) access.prepare c
        rw [h] at hprepared
        exact .attempted hprepared (completes_trace _ _ _) (completes_trace _ _ _) }
  | (.ok none, d) =>
    { rate := rate
      access := access
      exchanges := access.prepare.trace (handle timing) c
      attempt? := none
      goes := by
        have hprepared := completes_trace (handle timing) access.prepare c
        rw [h] at hprepared
        exact .spared hprepared nofun }
  | (.error fault, d) =>
    { rate := rate
      access := access
      exchanges := access.prepare.trace (handle timing) c
      attempt? := none
      goes := by
        have hprepared := completes_trace (handle timing) access.prepare c
        rw [h] at hprepared
        exact .spared hprepared nofun }

/-- What is asked and answered is what the program of the access goes through. -/
theorem Access.exchanges_visitIn (access : Access) (c : Cluster τ) :
    (access.visitIn timing rate c).exchanges = (access.task rate).trace (handle timing) c := by
  rw [Access.task_eq, trace_bind, visitIn]
  split
  · next start call d h =>
    dsimp only
    rw [h]
    congr 1
    exact (trace_outcome _ _ _).symm
  · next d h =>
    dsimp only
    rw [h]
    exact (List.append_nil _).symm
  · next fault d h =>
    dsimp only
    rw [h]
    exact (List.append_nil _).symm

/-- Accesses in a cluster, one after the other. -/
def visitsIn : List Access → Cluster τ → List (Visit τ)
  | [], _ => []
  | access :: later, c =>
    access.visitIn timing rate c ::
      visitsIn later ((access.task rate).run (handle timing) c).2

theorem isReliable_of_mem_visitsIn (accesses : List Access) (c : Cluster τ) :
    ∀ visit ∈ visitsIn timing rate accesses c, ∀ x ∈ visit.exchanges, IsReliable x := by
  induction accesses generalizing c with
  | nil => exact fun _ hvisit => absurd hvisit List.not_mem_nil
  | cons access later ih =>
    refine List.forall_mem_cons.2 ⟨?_, ih _⟩
    rw [Access.exchanges_visitIn]
    exact isReliable_of_mem_trace timing _ c

def accessAll (accesses : List Access) (c : Cluster τ) : Cluster τ :=
  accesses.foldl (fun c access => ((access.task rate).run (handle timing) c).2) c

/-- The record of the accesses is what the metrics of the cluster grow by, so what is said of the
record is said of the metrics. -/
theorem metrics_accessAll (accesses : List Access) (c : Cluster τ) :
    (accessAll timing rate accesses c).metrics =
      c.metrics ++ Visit.record (visitsIn timing rate accesses c) := by
  induction accesses generalizing c with
  | nil => exact (List.append_nil _).symm
  | cons access later ih =>
    have hadds := adds_run timing (access.task rate) c
    refine (ih _).trans ?_
    rw [hadds.metrics, List.append_assoc, ← Access.exchanges_visitIn]
    rfl

end Cluster

/-- The accesses of an operator that reads the canonical secret, creates a mirror, and updates one
that is not there. -/
def Example.accesses : List Access :=
  [.lookUp (.text Names.configNamespace) (.text Names.source),
    .create { Example.source with name := .text Names.target },
    .update { Example.source with name := .text "missing" }]

/-- Where every read times out, the read is timed and not counted; the writes are counted. -/
theorem metrics_show_calls_unreadable :
    let visits := visitsIn ⟨300, 30⟩ 8 Example.accesses Example.unreadable
    let d := accessAll ⟨300, 30⟩ 8 Example.accesses Example.unreadable
    ShowsCalls d.metrics (Visit.attempts visits) ∧
      (Visit.attempts visits).map Attempt.result? = [none, some "success", some "error"] := by
  have hreliable := isReliable_of_mem_visitsIn ⟨300, 30⟩ 8 Example.accesses Example.unreadable
  refine ⟨?_, by decide +kernel⟩
  rw [metrics_accessAll]
  exact metrics_show_calls hreliable

/-- A read that times out is not counted, although it is timed. -/
theorem not_metrics_count_calls :
    ¬ ∀ visits : List (Visit ℚ), (∀ visit ∈ visits, ∀ x ∈ visit.exchanges, IsReliable x) →
      ∀ call : ApiCall, sumOver (Visit.record visits) .apiCalls (isCallOf call) =
        (observations (Visit.record visits) (.apiCallTime call.name) : ℚ) := by
  intro h
  have hequal := h _ (isReliable_of_mem_visitsIn ⟨300, 30⟩ 8 Example.accesses Example.unreadable)
    .read
  revert hequal
  decide +kernel

end SecretMirror.Operator
