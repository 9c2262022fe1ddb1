import Mathlib.Algebra.BigOperators.Group.List.Lemmas
import Mathlib.Algebra.BigOperators.Ring.Finset
import SecretMirror.Metrics
import SecretMirror.Proofs.ExactTime

/-!
# What counters show together

`Metrics.sumOver` is what one reads off a metric when the labels that do not matter are summed over:
the totals of all known series with labels of some kind.  Known series are listed once each
(`nodup_knownSeries`), and they are those that have occurred (`mem_knownSeries`).  Hence, if the
metric was only ever incremented by one, and readings are exact, the sum is the number of these
increments (`sumOver_eq_countP`), just as the total of one series is (`total_eq_countP`).
-/

namespace SecretMirror.Metrics

variable {τ : Type}

/-- The update is about a series of a metric with labels of some kind. -/
def Update.isAbout (m : Metric) (wanted : List String → Bool) (u : Update τ) : Bool :=
  decide (u.series.metric = m) && wanted u.series.labels

/-- What the series of a metric show together whose labels are of some kind.  Each known series is
added once, as somebody who reads the metrics would. -/
def sumOver [Time τ] (record : List (Update τ)) (m : Metric) (wanted : List String → Bool) : τ :=
  (((knownSeries m record).filter fun s => wanted s.labels).map (total record)).foldl (· + ·) 0

/-! ## Known series -/

def addKnown (m : Metric) (known : List Series) (s : Series) : List Series :=
  if s.metric = m && !known.contains s then known ++ [s] else known

theorem knownSeries_eq_foldl (m : Metric) (record : List (Update τ)) :
    knownSeries m record = (record.map Update.series).foldl (addKnown m) [] := rfl

theorem mem_addKnown {m : Metric} {known : List Series} {s t : Series} :
    t ∈ addKnown m known s ↔ t ∈ known ∨ t = s ∧ s.metric = m := by
  unfold addKnown
  split
  · next h =>
    rw [Bool.and_eq_true, decide_eq_true_eq] at h
    rw [List.mem_append, List.mem_singleton]
    simp [h.1]
  · next h =>
    refine ⟨.inl, fun ht => ht.elim id ?_⟩
    rintro ⟨rfl, hm⟩
    simpa [hm] using h

theorem nodup_addKnown {m : Metric} {known : List Series} (h : known.Nodup) (s : Series) :
    (addKnown m known s).Nodup := by
  unfold addKnown
  split
  · next hnew =>
    rw [Bool.and_eq_true, Bool.not_eq_true', List.contains_eq_mem, decide_eq_false_iff_not] at hnew
    rw [List.nodup_append]
    refine ⟨h, List.nodup_singleton s, ?_⟩
    rintro t ht u hu rfl
    rw [List.mem_singleton] at hu
    exact hnew.2 (hu ▸ ht)
  · exact h

theorem mem_foldl_addKnown {m : Metric} {occurred known : List Series} {t : Series} :
    t ∈ occurred.foldl (addKnown m) known ↔ t ∈ known ∨ t ∈ occurred ∧ t.metric = m := by
  induction occurred generalizing known with
  | nil => simp
  | cons s occurred ih =>
    rw [List.foldl_cons, ih, mem_addKnown, List.mem_cons, or_assoc]
    constructor
    · rintro (hknown | ⟨rfl, hm⟩ | ⟨ht, hm⟩)
      · exact .inl hknown
      · exact .inr ⟨.inl rfl, hm⟩
      · exact .inr ⟨.inr ht, hm⟩
    · rintro (hknown | ⟨rfl | ht, hm⟩)
      · exact .inl hknown
      · exact .inr (.inl ⟨rfl, hm⟩)
      · exact .inr (.inr ⟨ht, hm⟩)

theorem nodup_foldl_addKnown {m : Metric} {occurred known : List Series} (h : known.Nodup) :
    (occurred.foldl (addKnown m) known).Nodup := by
  induction occurred generalizing known with
  | nil => exact h
  | cons s occurred ih => exact ih (nodup_addKnown h s)

/-- A series is known if it has occurred. -/
theorem mem_knownSeries {m : Metric} {record : List (Update τ)} {s : Series} :
    s ∈ knownSeries m record ↔ s ∈ record.map Update.series ∧ s.metric = m := by
  rw [knownSeries_eq_foldl, mem_foldl_addKnown]
  simp

theorem nodup_knownSeries (m : Metric) (record : List (Update τ)) :
    (knownSeries m record).Nodup :=
  nodup_foldl_addKnown List.nodup_nil

/-! ## Observations -/

theorem observations_eq_countP (record : List (Update τ)) (s : Series) :
    observations record s = record.countP fun u => (u.amountFor? s).isSome :=
  List.length_filterMap_eq_countP ..

theorem series_of_amountFor? {u : Update τ} {s : Series} (h : (u.amountFor? s).isSome = true) :
    u.series = s := by
  cases u with
  | register t => cases h
  | add t amount =>
    rw [Update.amountFor?] at h
    split at h
    · next hs => exact hs
    · cases h

/-! ## Increments by one -/

variable [Time τ] {record : List (Update τ)}

/-- A series that is only incremented by one has a one for each of its updates. -/
theorem amounts_eq_replicate {s : Series}
    (h : ∀ u ∈ record, u.series = s → u = .add s 1) :
    amounts record s = List.replicate (record.countP fun u => u.series = s) 1 := by
  induction record with
  | nil => rfl
  | cons u record ih =>
    obtain ⟨hu, hrecord⟩ := List.forall_mem_cons.1 h
    have hrest := ih hrecord
    unfold amounts at hrest ⊢
    by_cases hs : u.series = s
    · have hone : u.amountFor? s = some 1 := by
        rw [hu hs]
        exact if_pos rfl
      rw [List.filterMap_cons_some hone, hrest, List.countP_cons_of_pos (by simpa using hs),
        List.replicate_succ]
    · have hnone : u.amountFor? s = none := by
        cases u with
        | register t => rfl
        | add t amount => exact if_neg hs
      rw [List.filterMap_cons_none hnone, hrest, List.countP_cons_of_neg (by simpa using hs)]

section Exact

variable {K : Type} [Field K] [LinearOrder K] {record : List (Update K)}

/-- The total of a series that is only incremented by one is the number of its updates. -/
theorem total_eq_countP {s : Series} (h : ∀ u ∈ record, u.series = s → u = .add s 1) :
    total record s = (record.countP fun u => u.series = s : ℕ) := by
  unfold total
  rw [amounts_eq_replicate h, ← List.sum_eq_foldl, List.sum_replicate, nsmul_one]

/-- The totals of a metric that is only incremented by one add up to the number of its updates.  For
this readings have to be exact, since sums of doubles may be rounded. -/
theorem sumOver_eq_countP {m : Metric} (h : ∀ u ∈ record, u.series.metric = m →
    u = .add u.series 1) (wanted : List String → Bool) :
    sumOver record m wanted = (record.countP (Update.isAbout m wanted) : ℕ) := by
  have htotal : ∀ s ∈ (knownSeries m record).filter fun s => wanted s.labels,
      total record s = ((record.map Update.series).count s : K) := by
    intro s hs
    obtain ⟨-, hm⟩ := mem_knownSeries.1 (List.mem_of_mem_filter hs)
    rw [total_eq_countP, List.count, List.countP_map]
    · congr 1
    · rintro u hu rfl
      exact h u hu hm
  have hperm : ((knownSeries m record).filter fun s => wanted s.labels).Perm
      ((record.map Update.series).dedup.filter fun s =>
        decide (s.metric = m) && wanted s.labels) := by
    rw [List.perm_ext_iff_of_nodup ((nodup_knownSeries m record).filter _)
      ((List.nodup_dedup _).filter _)]
    intro s
    rw [List.mem_filter, List.mem_filter, mem_knownSeries, List.mem_dedup, Bool.and_eq_true,
      decide_eq_true_eq, and_assoc]
  have hcount := List.sum_map_count_dedup_filter_eq_countP
    (fun s : Series => decide (s.metric = m) && wanted s.labels) (record.map Update.series)
  rw [List.countP_map] at hcount
  unfold sumOver
  rw [← List.sum_eq_foldl, List.map_congr_left htotal, (hperm.map _).sum_eq]
  show _ = ((record.countP ((fun s : Series => decide (s.metric = m) && wanted s.labels) ∘
    Update.series) : ℕ) : K)
  rw [← hcount, Nat.cast_list_sum, List.map_map]
  rfl

end Exact

end SecretMirror.Metrics
