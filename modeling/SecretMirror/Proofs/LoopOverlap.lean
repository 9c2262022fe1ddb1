import SecretMirror.Proofs.LoopThreads
import SecretMirror.Proofs.ExactTime
import SecretMirror.Proofs.Tracing
import Mathlib.Tactic.NormNum

/-!
# A loop that is started while another one goes on

A stop waits for its thread for a limited time only and then lets go of it, alive or not.  The next
start finds no thread that is held on to, clears the flag and starts a thread; the flag is the same
for all threads, so one that is still in a reconciliation finds it clear and goes on.  From then on
two threads tick (`revived_overlaps`).

This is the only way: at some point of a run two threads can both still tick just if some start came
beside a thread that had not ended, and none does if every stop has waited for its thread
(`overlaps_iff_started_beside`).  What does hold always is that after the flag was set each thread
claims at most once more, until a start clears it.

That a thread can still tick (`CanTick`) means that it does so in some continuation without another
call.  Where the flag is clear, these are the threads that have not ended: left to itself, each of
them comes to the end of its round and into the next tick (`Stands.gives_alone`).
-/

namespace SecretMirror.Resync

open Program hiding bind ask

variable {τ α : Type}

/-! ## Calls, claims, and threads that have not ended -/

namespace LoopThreads

variable {c : LoopThreads τ} {i : Nat}

/-- How often a thread claims a run, which is once in a tick. -/
def claims (thread : Nat) (es : List (Event τ)) : Nat :=
  ((exchanges thread es).map fun x => Request.claims x.request).sum

theorem claims_append (thread : Nat) (es fs : List (Event τ)) :
    claims thread (es ++ fs) = claims thread es + claims thread fs := by
  simp [claims, exchanges]

theorem claims_cons (thread : Nat) (e : Event τ) (es : List (Event τ)) :
    claims thread (e :: es) =
      ((e.exchangesOf thread).map fun x => Request.claims x.request).sum + claims thread es := by
  simp [claims, exchanges]

theorem exchanges_map_answered (xs : List (Exchange (requests τ) (Fault τ))) :
    exchanges i (xs.map (.answered i)) = xs := by
  induction xs with
  | nil => rfl
  | cons x xs ih =>
    rw [List.map_cons, exchanges, List.flatMap_cons, Event.exchangesOf, if_pos rfl]
    exact congrArg (x :: ·) ih

/-- What somebody outside asks for, namely a start or a part of a stop.  The rest goes on by
itself. -/
def Event.IsCall : Event τ → Prop
  | .interfered => False
  | .answered _ _ => False
  | _ => True

theorem not_isCall_of_mem_map {xs : List (Exchange (requests τ) (Fault τ))} :
    ∀ e ∈ xs.map (Event.answered i), ¬ e.IsCall := by
  intro e he
  obtain ⟨x, -, rfl⟩ := List.mem_map.1 he
  exact id

theorem mem_going_iff : i ∈ c.going ↔ ∃ p, c.threads[i]? = some p ∧ phaseOf p ≠ .ended := by
  have halive : ∀ phase : Phase, phase.isAlive = true ↔ phase ≠ .ended := by
    intro phase
    cases phase <;> decide
  have hphase : c.lifecycle.phase i = (c.threads[i]?.map phaseOf).getD .ended := by
    rw [← List.getElem?_map]
    rfl
  rw [going, List.mem_filter, List.mem_range, halive, hphase]
  cases hi : c.threads[i]? with
  | none => simp
  | some p =>
    have hlt : i < c.threads.length := (List.getElem?_eq_some_iff.1 hi).1
    simp [hlt]

theorem isRunning_of_held (hheld : c.held = some i) (hi : i ∈ c.going) :
    c.lifecycle.isRunning = true := by
  have halive : (c.lifecycle.phase i).isAlive = true := (List.mem_filter.1 hi).2
  unfold Lifecycle.isRunning
  rw [show c.lifecycle.current = some i from hheld]
  exact halive

end LoopThreads

variable [Time τ] {timing : Timing τ}

/-! ## A thread that is left to itself -/

/-- Answers everything at once, and reconciliations succeed. -/
def Clocked.alone (timing : Timing τ) : (q : Request τ) → Clocked τ →
    Except (Fault τ) ((requests τ).Answer q) × Clocked τ
  | .schedule step, s =>
    (.ok (step.perform timing s.schedule).1,
      { s with schedule := (step.perform timing s.schedule).2 })
  | .now, s => (.ok s.clock, s)
  | .pause _, s => (.ok (), s)
  | .reconcile _, s => (.ok (), s)

theorem Clocked.answers_alone (timing : Timing τ) (q : Request τ) (s : Clocked τ) :
    Clocked.Answers timing q s (alone timing q s).1 (alone timing q s).2 := by
  cases q with
  | schedule step => exact ⟨rfl, rfl⟩
  | now => exact ⟨rfl, rfl⟩
  | pause time => rfl
  | reconcile trigger => rfl

theorem Clocked.isPossible_alone (timing : Timing τ) (q : Request τ) (s : Clocked τ) :
    IsPossible q (alone timing q s).1 := by
  intro fault h
  cases q <;> cases h

theorem Ticks.gives_alone (timing : Timing τ) {p : Task τ α} {n : Nat} (hp : Ticks p n)
    (s : Clocked τ) :
    ∃ v t, p.Gives (Clocked.alone timing) s v t ∧ t.schedule.stopped = s.schedule.stopped := by
  induction p generalizing n s with
  | done r =>
    obtain ⟨-, v, rfl⟩ := hp
    exact ⟨v, s, rfl, rfl⟩
  | ask q next ih =>
    obtain ⟨hq, m, -, hnext⟩ := hp
    have hasked := Clocked.answers_alone timing q s
    obtain ⟨v, t, hrun, hflag⟩ := ih _ (hnext _ (Clocked.isPossible_alone timing q s)) _
    exact ⟨v, t, hrun, hflag.trans (stopped_of_isOfTick hq hasked)⟩

theorem gives_alone_afterTick (timing : Timing τ) (time : τ) (s : Clocked τ) :
    ∃ t, (afterTick time).Gives (Clocked.alone timing) s true t ∧
      t.schedule.stopped = s.schedule.stopped := by
  unfold afterTick
  split
  · exact ⟨_, rfl, rfl⟩
  · exact ⟨_, rfl, rfl⟩

theorem Ticks.gives_alone_bind (timing : Timing τ) {p : Task τ τ} {n : Nat} (hp : Ticks p n)
    (s : Clocked τ) :
    ∃ t, (p >>= afterTick).Gives (Clocked.alone timing) s true t ∧
      t.schedule.stopped = s.schedule.stopped := by
  obtain ⟨time, t, hrun, hflag⟩ := hp.gives_alone timing s
  obtain ⟨u, hafter, hflag'⟩ := gives_alone_afterTick timing time t
  exact ⟨u, gives_bind hrun hafter, hflag'.trans hflag⟩

theorem gives_alone_isStopped (timing : Timing τ) {s : Clocked τ}
    (hflag : s.schedule.stopped = false) :
    (step .isStopped).Gives (Clocked.alone timing) s false s := by
  refine gives_request ?_
  rw [← hflag]
  rfl

/-- While the flag is clear, a thread that has not ended comes to the end of its round. -/
theorem Stands.gives_alone {phase : Phase} {n : Nat} {p : Task τ Bool}
    (h : Stands timing phase n p) (hphase : phase ≠ .ended) {s : Clocked τ}
    (hflag : s.schedule.stopped = false) :
    ∃ t, p.Gives (Clocked.alone timing) s true t ∧ t.schedule.stopped = false := by
  cases h with
  | looking =>
    obtain ⟨t, hrun, hflag'⟩ := (ticks_tick timing).gives_alone_bind timing s
    exact ⟨t, gives_bind (gives_alone_isStopped timing hflag) hrun, hflag'.trans hflag⟩
  | ticking hticks _ =>
    obtain ⟨t, hrun, hflag'⟩ := hticks.gives_alone_bind timing s
    exact ⟨t, hrun, hflag'.trans hflag⟩
  | pausing time => exact ⟨_, rfl, hflag⟩
  | settling => exact ⟨_, rfl, hflag⟩
  | ended => exact absurd rfl hphase

theorem exists_claim_mem_trace_round (timing : Timing τ) {s : Clocked τ}
    (hflag : s.schedule.stopped = false) :
    ∃ x ∈ (round timing).trace (Clocked.alone timing) s, 0 < Request.claims x.request := by
  have hlook := gives_alone_isStopped timing hflag
  have hnow : (now (τ := τ)).Gives (Clocked.alone timing) s s.clock s := gives_request rfl
  refine ⟨_, hlook.mem_trace_bind (mem_trace_outcome (hnow.mem_trace_bind (.head _))), ?_⟩
  exact Nat.one_pos

namespace LoopThreads

variable {c d f : LoopThreads τ} {e : Event τ} {es fs : List (Event τ)} {i j : Nat}
  {p : Task τ Bool}

/-! ## Threads that have ended -/

/-- A thread that has not ended had not ended before, or has just been started. -/
theorem Step.mem_going (hs : Step timing c e d) (hi : i ∈ d.going) :
    i ∈ c.going ∨ i = c.threads.length ∧ e = .started c.going := by
  obtain ⟨p, hp, hphase⟩ := mem_going_iff.1 hi
  cases h : c.threads[i]? with
  | none =>
    right
    rcases (hs.of_none h).2 with hnone | ⟨⟨beside, rfl⟩, -⟩
    · rw [hnone] at hp
      cases hp
    · cases hs with
      | start _ _ =>
        refine ⟨?_, rfl⟩
        have hlt : i < (c.threads ++ [round timing]).length := (List.getElem?_eq_some_iff.1 hp).1
        have hge : c.threads.length ≤ i := List.getElem?_eq_none_iff.1 h
        rw [List.length_append, List.length_singleton] at hlt
        omega
  | some p₀ =>
    left
    rcases hs.thread h with ⟨-, hsame⟩ | ⟨q, next, a, rfl, -⟩
    · obtain rfl := Option.some.inj (hsame.symm.trans hp)
      exact mem_going_iff.2 ⟨p₀, h, hphase⟩
    · exact mem_going_iff.2 ⟨_, h, q.phase_ne_ended⟩

theorem Step.exchangesOf_of_not_mem (hs : Step timing c e d) (hi : i ∉ c.going) :
    e.exchangesOf i = [] := by
  cases h : c.threads[i]? with
  | none => exact (hs.of_none h).1
  | some p =>
    rcases hs.thread h with ⟨hquiet, -⟩ | ⟨q, next, a, rfl, -⟩
    · exact hquiet
    · exact absurd (mem_going_iff.2 ⟨_, h, q.phase_ne_ended⟩) hi

/-- A thread that has ended asks for nothing more, and one that is not there for nothing at all
unless it is started. -/
theorem Run.exchanges_of_not_mem (hrun : Run timing c es d)
    (hes : ∀ beside, .started beside ∉ es) (hi : i ∉ c.going) : exchanges i es = [] := by
  induction hrun with
  | stay c => rfl
  | @step c d f e es hs _ ih =>
    have hi' : i ∉ d.going := by
      intro hmem
      rcases hs.mem_going hmem with h | ⟨-, rfl⟩
      · exact hi h
      · exact hes _ (List.mem_cons_self ..)
    have hrest : exchanges i es = [] :=
      ih (fun beside h => hes beside (List.mem_cons_of_mem _ h)) hi'
    show e.exchangesOf i ++ exchanges i es = []
    rw [hs.exchangesOf_of_not_mem hi, hrest]
    rfl

/-! ## How often a thread claims -/

/-- Only a start clears the flag. -/
theorem Step.keeps_flag (hs : Step timing c e d) (hc : c.IsSound timing)
    (hstart : ∀ beside, e ≠ .started beside) (hflag : c.shared.schedule.stopped = true) :
    d.shared.schedule.stopped = true := by
  have hshows := hs.shows hc
  cases hs with
  | start _ _ => exact absurd rfl (hstart _)
  | interfere _ hsame => exact hsame.trans hflag
  | answer _ _ _ =>
    show Lifecycle.stopped (lifecycle _) = true
    rcases hshows with h | ⟨pauses, h⟩
    · rw [h]
      exact hflag
    · rw [h]
      exact hflag
  | stop _ => rfl
  | _ => exact hflag

/-- Once the flag is set, a thread claims as often as it still does before it looks at it. -/
theorem Run.claims_le (hrun : Run timing c es d) (hc : c.IsSound timing)
    (hflag : c.shared.schedule.stopped = true) (hes : ∀ beside, .started beside ∉ es)
    {phase : Phase} {n : Nat} (hi : c.threads[i]? = some p) (hstands : Stands timing phase n p) :
    claims i es ≤ n := by
  induction hrun generalizing phase n p with
  | stay c => exact Nat.zero_le n
  | @step c d f e es hs _ ih =>
    have hstart : ∀ beside, e ≠ .started beside := by
      rintro beside rfl
      exact hes beside (List.mem_cons_self ..)
    have hrest : ∀ {p phase n}, d.threads[i]? = some p → Stands timing phase n p →
        claims i es ≤ n :=
      ih (hs.isSound hc) (hs.keeps_flag hc hstart hflag)
        fun beside h => hes beside (List.mem_cons_of_mem _ h)
    rw [claims_cons]
    -- The flag stays set, so the bound can only shrink by what is claimed.
    rcases hs.thread hi with ⟨hquiet, hsame⟩ | ⟨q, next, a, rfl, rfl, hnext, ha, hok⟩
    · rw [hquiet, List.map_nil, List.sum_nil, Nat.zero_add]
      exact hrest hsame hstands
    · rw [Event.exchangesOf, if_pos rfl, List.map_singleton, List.sum_singleton]
      obtain ⟨-, phase', n', hstands', -, hcount⟩ := hstands.answer ha hok
      have hle : claims i es ≤ n' := hrest hnext hstands'
      rcases hcount with rfl | ⟨-, hclear, -⟩
      · show q.claims + claims i es ≤ n' + q.claims
        omega
      · rw [hflag] at hclear
        cases hclear

/-- Once the flag is set, every thread claims at most once more, until a start clears it. -/
theorem Run.claims_le_one (hrun : Run timing c es d) (hc : c.IsSound timing)
    (hflag : c.shared.schedule.stopped = true) (hes : ∀ beside, .started beside ∉ es) (i : Nat) :
    claims i es ≤ 1 := by
  by_cases hi : i ∈ c.going
  · obtain ⟨p, hp, -⟩ := mem_going_iff.1 hi
    obtain ⟨phase, n, hstands⟩ := hc i p hp
    exact (hrun.claims_le hc hflag hes hp hstands).trans hstands.le_one
  · rw [claims, hrun.exchanges_of_not_mem hes hi]
    exact Nat.zero_le 1

/-! ## Threads that can tick -/

/-- Without another call, it may come to a tick of the thread. -/
def CanTick (timing : Timing τ) (c : LoopThreads τ) (i : Nat) : Prop :=
  ∃ es d, Run timing c es d ∧ (∀ e ∈ es, ¬ e.IsCall) ∧ 0 < claims i es

/-- Two threads can both still tick, so that two reconciliations may go on at once. -/
def Overlaps (timing : Timing τ) (c : LoopThreads τ) : Prop :=
  ∃ i j, i ≠ j ∧ c.CanTick timing i ∧ c.CanTick timing j

theorem CanTick.mem_going (h : c.CanTick timing i) : i ∈ c.going := by
  obtain ⟨es, d, hrun, hquiet, hclaims⟩ := h
  by_contra hi
  rw [claims, hrun.exchanges_of_not_mem (fun beside h => hquiet _ h trivial) hi] at hclaims
  exact Nat.lt_irrefl 0 hclaims

theorem Run.alone (hi : c.threads[i]? = some (again timing p)) :
    Run timing c ((p.trace (Clocked.alone timing) c.shared).map (.answered i)) { c with
      shared := (p.run (Clocked.alone timing) c.shared).2
      threads := c.threads.set i
        (again timing (.done (p.run (Clocked.alone timing) c.shared).1)) } := by
  -- Nobody else acts, so every step answers this thread.
  induction p generalizing c with
  | done r =>
    obtain ⟨hlt, hr⟩ := List.getElem?_eq_some_iff.1 hi
    show Run timing c [] { c with threads := c.threads.set i (again timing (.done r)) }
    rw [← hr, List.set_getElem_self hlt]
    exact .stay c
  | ask q next ih =>
    have hlt : i < c.threads.length := (List.getElem?_eq_some_iff.1 hi).1
    rw [trace_ask, run_ask]
    refine .step (.answer hi (Clocked.answers_alone timing q c.shared)
      (Clocked.isPossible_alone timing q c.shared)) ?_
    have hrest := ih (Clocked.alone timing q c.shared).1 (c := { c with
      shared := (Clocked.alone timing q c.shared).2
      threads := c.threads.set i (again timing (next (Clocked.alone timing q c.shared).1)) })
      (by simp [hlt])
    rw [List.set_set] at hrest
    exact hrest

/-- While the flag is clear, every thread that has not ended comes to its next look at the flag. -/
theorem exists_run_to_round (hc : c.IsSound timing) (hflag : c.shared.schedule.stopped = false)
    (hi : i ∈ c.going) : ∃ es d, Run timing c es d ∧ (∀ e ∈ es, ¬ e.IsCall) ∧
      d.shared.schedule.stopped = false ∧ d.threads[i]? = some (round timing) := by
  obtain ⟨p, hp, hphase⟩ := mem_going_iff.1 hi
  have hlt : i < c.threads.length := (List.getElem?_eq_some_iff.1 hp).1
  obtain ⟨phase, n, hstands⟩ := hc i p hp
  rw [hstands.phaseOf_eq] at hphase
  obtain ⟨t, hgives, hflag'⟩ := hstands.gives_alone hphase hflag
  have hagain : again timing p = p := by
    unfold again
    split
    · cases hstands
    · rfl
  rw [← hagain] at hp
  have hrun := Run.alone hp
  rw [hgives] at hrun
  exact ⟨_, _, hrun, not_isCall_of_mem_map, hflag', List.getElem?_set_self hlt⟩

/-- While the flag is clear, every thread that has not ended can tick. -/
theorem canTick_of_mem_going (hc : c.IsSound timing) (hflag : c.shared.schedule.stopped = false)
    (hi : i ∈ c.going) : c.CanTick timing i := by
  obtain ⟨es, d, hrun, hquiet, hflag', hround⟩ := exists_run_to_round hc hflag hi
  obtain ⟨x, hx, hclaims⟩ := exists_claim_mem_trace_round timing hflag'
  have hloop : d.threads[i]? = some (again timing (round timing)) := hround
  refine ⟨_, _, hrun.append (.alone hloop), ?_, ?_⟩
  · intro e he
    rcases List.mem_append.1 he with he | he
    · exact hquiet e he
    · exact not_isCall_of_mem_map e he
  · rw [claims_append]
    apply Nat.add_pos_right
    rw [claims, exchanges_map_answered]
    exact List.sum_pos_iff_exists_pos_nat.2 ⟨_, List.mem_map_of_mem hx, hclaims⟩

/-! ## Threads beside one another -/

/-- Until a start comes beside a thread that has not ended, only one thread has not. -/
theorem Run.going_eq {clock : τ} (hrun : Run timing (new clock) es c)
    (hes : ∀ beside, .started beside ∈ es → beside = []) :
    ∀ i ∈ c.going, ∀ j ∈ c.going, i = j := by
  refine hrun.keeps (I := fun c => ∀ i ∈ c.going, ∀ j ∈ c.going, i = j) nofun ?_
  intro c e d he hs hc i hi j hj
  rcases hs.mem_going hi with hi | ⟨rfl, rfl⟩
  · rcases hs.mem_going hj with hj | ⟨-, rfl⟩
    · exact hc i hi j hj
    · rw [hes _ he] at hi
      cases hi
  · rcases hs.mem_going hj with hj | ⟨rfl, -⟩
    · rw [hes _ he] at hj
      cases hj
    · rfl

/-- After a start that came beside a thread that has not ended, both can tick. -/
theorem Step.overlaps {beside : List Nat} (hs : Step timing c (.started beside) d)
    (hc : c.IsSound timing) (hi : i ∈ beside) : d.Overlaps timing := by
  have hd : d.IsSound timing := hs.isSound hc
  cases hs with
  | start _ _ =>
    obtain ⟨p, hp, hphase⟩ := mem_going_iff.1 hi
    have hlt : i < c.threads.length := (List.getElem?_eq_some_iff.1 hp).1
    refine ⟨i, c.threads.length, hlt.ne, canTick_of_mem_going hd rfl ?_,
      canTick_of_mem_going hd rfl ?_⟩
    · exact mem_going_iff.2 ⟨p, by rw [List.getElem?_append_left hlt]; exact hp, hphase⟩
    · exact mem_going_iff.2 ⟨round timing, List.getElem?_concat_length, nofun⟩

/-- As long as every stop waits for its thread, the thread that has not ended is held on to, so the
next start finds it. -/
theorem Step.held_of_mem_going (hs : Step timing c e d) (hc : ∀ i ∈ c.going, c.held = some i)
    (hwaits : e ≠ .letGo true) : ∀ i ∈ d.going, d.held = some i := by
  intro i hi
  have hold : i ∈ c.going ∨ i = c.threads.length ∧ e = .started c.going := hs.mem_going hi
  cases hs with
  | start _ hrunning =>
    rcases hold with hi | ⟨rfl, -⟩
    · rw [isRunning_of_held (hc i hi) hi] at hrunning
      cases hrunning
    · rfl
  | letGo _ =>
    rcases hold with hi | ⟨-, hstart⟩
    · rw [isRunning_of_held (hc i hi) hi] at hwaits
      exact absurd rfl hwaits
    · cases hstart
  | _ =>
    rcases hold with hi | ⟨-, hstart⟩
    · exact hc i hi
    · cases hstart

/-- If every stop waits for its thread, no start comes beside one. -/
theorem Run.started_alone {clock : τ} (hrun : Run timing (new clock) es c)
    (hes : .letGo true ∉ es) {beside : List Nat} (hstarted : .started beside ∈ es) :
    beside = [] := by
  obtain ⟨fs, gs, rfl⟩ := List.append_of_mem hstarted
  obtain ⟨d, hfs, hrest⟩ := hrun.split
  have hheld : ∀ i ∈ d.going, d.held = some i := by
    refine hfs.keeps (I := fun c => ∀ i ∈ c.going, c.held = some i) nofun ?_
    intro c e d he hs hc
    refine hs.held_of_mem_going hc ?_
    rintro rfl
    exact hes (List.mem_append_left _ he)
  cases hrest with
  | step hs _ =>
    cases hs with
    | start _ hrunning =>
      refine List.eq_nil_iff_forall_not_mem.2 fun i hi => ?_
      rw [isRunning_of_held (hheld i hi) hi] at hrunning
      cases hrunning

/-! ## Runs -/

/-- A run comes by the state `d`. -/
def Passes (timing : Timing τ) (c : LoopThreads τ) (es : List (Event τ)) (f d : LoopThreads τ) :
    Prop :=
  ∃ fs gs, es = fs ++ gs ∧ Run timing c fs d ∧ Run timing d gs f

/-- For every sequence of starts and stops, whatever the threads do meanwhile: two threads can both
still tick at some point just if a start came beside a thread that had not ended.  None does if
every stop has waited for its thread.  Once the flag is set, every thread claims at most once more,
until a start clears it. -/
theorem overlaps_iff_started_beside {clock : τ} (hrun : Run timing (new clock) es c) :
    ((∃ d, Passes timing (new clock) es c d ∧ d.Overlaps timing) ↔
      ∃ beside, beside ≠ [] ∧ .started beside ∈ es) ∧
    (.letGo true ∉ es → ∀ beside, .started beside ∈ es → beside = []) ∧
    (c.shared.schedule.stopped = true → ∀ gs d, Run timing c gs d →
      (∀ beside, .started beside ∉ gs) → ∀ i, claims i gs ≤ 1) := by
  have hnew : (new clock).IsSound timing := isSound_new timing clock
  refine ⟨⟨?_, ?_⟩, fun hwaits beside => hrun.started_alone hwaits,
    fun hflag gs d hgs hgsn i => hgs.claims_le_one (hrun.isSound hnew) hflag hgsn i⟩
  · rintro ⟨d, ⟨fs, gs, rfl, hfs, -⟩, i, j, hne, hi, hj⟩
    by_contra hnone
    refine hne (hfs.going_eq (fun beside hstarted => ?_) i hi.mem_going j hj.mem_going)
    by_contra hbeside
    exact hnone ⟨beside, hbeside, List.mem_append_left _ hstarted⟩
  · rintro ⟨beside, hbeside, hstarted⟩
    obtain ⟨fs, gs, rfl⟩ := List.append_of_mem hstarted
    obtain ⟨d, hfs, hrest⟩ := hrun.split
    obtain ⟨i, hi⟩ := List.exists_mem_of_ne_nil beside hbeside
    cases hrest with
    | @step _ f _ _ _ hs hgs =>
      refine ⟨f, ⟨fs ++ [.started beside], gs, ?_, hfs.append (.step hs (.stay f)), hgs⟩, ?_⟩
      · rw [List.append_assoc, List.singleton_append]
      · exact hs.overlaps (hfs.isSound hnew) hi

namespace Samples

/-- Runs are due every five minutes. -/
def fiveMinutes : Timing ℚ := ⟨300, 30⟩

/-- A thread is let go of while it reconciles, and another one is started. -/
def revived : List (Event ℚ) :=
  [.started [], .answered 0 ⟨.schedule .isStopped, .ok false⟩, .interfered,
    .answered 0 ⟨.now, .ok 300⟩, .answered 0 ⟨.schedule (.claim 300), .ok (.run "timer")⟩,
    .stopped, .letGo true, .started [0]]

/-- A thread sees the flag before it is let go of, and another one is started. -/
def restarted : List (Event ℚ) :=
  [.started [], .stopped, .answered 0 ⟨.schedule .isStopped, .ok true⟩, .letGo false, .started []]

end Samples

open Samples in
/-- A loop that was stopped in time and started again goes on alone. -/
theorem overlaps_iff_started_beside_restarted :
    ∃ c, Run fiveMinutes (new 0) restarted c ∧
      ¬ ∃ d, Passes fiveMinutes (new 0) restarted c d ∧ d.Overlaps fiveMinutes := by
  have hrun : ∃ c, Run fiveMinutes (new 0) restarted c := ⟨_,
    .step (.start rfl rfl) <|
    .step (.stop rfl) <|
    .step (.answer rfl ⟨rfl, rfl⟩ nofun) <|
    .step (.letGo rfl) <|
    .step (.start rfl rfl) (.stay _)⟩
  obtain ⟨c, hrun⟩ := hrun
  refine ⟨c, hrun, fun h => ?_⟩
  obtain ⟨beside, hbeside, hstarted⟩ := (overlaps_iff_started_beside hrun).1.1 h
  simp [restarted, hbeside] at hstarted

open Samples in
/-- The thread that was let go of finds the flag clear when its reconciliation is over, and both
tick. -/
theorem revived_overlaps :
    ∃ c, Run fiveMinutes (new 0) revived c ∧ c.Overlaps fiveMinutes := by
  have hdue : (0 : ℚ) ≤ 300 := by norm_num
  have hclaim : (.ok (.run "timer") : Except (Fault ℚ) (Claim ℚ)) =
      .ok (({ lastRun := 0 } : Schedule ℚ).claim fiveMinutes 300).1 := by
    simp [Schedule.claim, Schedule.next, fiveMinutes]
  have hstarted : ∃ c d, Run fiveMinutes (new 0) (revived.take 7) c ∧
      Step fiveMinutes c (.started [0]) d := ⟨_, _,
    .step (.start rfl rfl) <|
    .step (.answer rfl ⟨rfl, rfl⟩ (isPossible_ok _)) <|
    .step (.interfere hdue rfl) <|
    .step (.answer rfl ⟨rfl, rfl⟩ (isPossible_ok _)) <|
    .step (.answer rfl ⟨hclaim, rfl⟩ (isPossible_ok _)) <|
    .step (.stop rfl) <|
    .step (.letGo rfl) (.stay _), .start rfl rfl⟩
  obtain ⟨c, d, hrun, hs⟩ := hstarted
  exact ⟨d, hrun.append (.step hs (.stay d)),
    hs.overlaps (hrun.isSound (isSound_new fiveMinutes 0)) (List.mem_singleton_self 0)⟩

end LoopThreads

end SecretMirror.Resync
