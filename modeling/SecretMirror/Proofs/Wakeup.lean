import SecretMirror.Proofs.RunHistory
import SecretMirror.Proofs.Completion
import SecretMirror.Proofs.LoopThreads
import SecretMirror.Proofs.Due

/-!
# No wakeup is lost

One thread runs the loop.  Beside it others ask for retries or ask it to stop (`calling`), and each
does so in two steps: what it wants is written into the schedule first, and the flag that ends the
pause of the loop is set afterwards.  The loop clears this flag after every pause, whoever has set
it and for what.

When the loop pauses, it has looked whether to stop and then what is due, without a pause in between
(`follows_to_pause`), and only a pause is followed by clearing the flag.  So what others have
written since the loop looked is in the schedule together with the flag, or they are just about to
set the flag, and nothing can undo this while the loop pauses (`IsSignalled.step`,
`IsSignalled.run`).  This is shown for anything that the loop may have found, and applied twice: to
what is due, which it found by its claim, and to the request to stop, for which it looked before.

A pause may end at any time here, so a pause that times out and one that is ended by the flag are
both among the runs.
-/

namespace SecretMirror.Resync

open Interleaving
open Program hiding bind ask

variable {τ α : Type} [Time τ] {timing : Timing τ}

/-! ## One loop and its callers -/

/-- What is done beside the loop: a retry is asked for, be it because a run has failed, or the loop
is asked to stop. -/
inductive Calls (timing : Timing τ) : Task τ Unit → Prop where
  | scheduleRetry (delay : τ) : Calls timing (scheduleRetry delay)
  | run (trigger : Value) : Calls timing (run timing trigger)
  | stop : Calls timing stop

/-- A schedule with a clock that never goes back, beside whose loop anybody may call. -/
def calling (timing : Timing τ) : Medium (requests τ) (Fault τ) (Clocked τ) where
  answers := Clocked.Answers timing
  interferes s t := ∃ later, s.clock ≤ later ∧ t = { s with clock := later }
  starts _ p := Calls timing p

/-- The loop has to learn of this step: a retry that was posted, or the request to stop. -/
def Step.IsNews : Step τ → Prop
  | .post _ => True
  | .stop => True
  | _ => False

/-- The thread has taken a step, and what it asks next is to set the flag. -/
structure IsBetween (s : Step τ) (es : List (Event (requests τ) (Fault τ)))
    (Q : Pool (requests τ) (Fault τ) (Clocked τ)) (i : Nat) : Prop where
  done : ∃ xs a, exchanges i es = xs ++ [⟨.schedule s, a⟩]
  next : ∃ p, Q.threads[i]? = some p ∧ Asks p (.schedule .wake)

/-- The loop, which is the first thread, pauses for a time.  Its last step before was the claim that
has found nothing to be due before `due`, and this is how long it was until then. -/
structure WaitsFor (timing : Timing τ) (P : Pool (requests τ) (Fault τ) (Clocked τ))
    (es : List (Event (requests τ) (Fault τ))) (Q : Pool (requests τ) (Fault τ) (Clocked τ))
    (time due : τ) : Prop where
  pauses : ∃ p, Q.threads[0]? = some p ∧ Asks p (.pause time)
  computed : ∃ fs X now,
    Occurs (calling timing) P es Q fs X (.answered 0 ⟨.schedule (.claim now), .ok (.wait time)⟩) ∧
      exchanges 0 es = exchanges 0 fs ++ [⟨.schedule (.claim now), .ok (.wait time)⟩] ∧
      (X.shared.schedule.next timing).1 = due ∧ now < due ∧ time = due - now

/-! ## What callers do -/

/-- The program does not clear the flag, and sets it as soon as there is news. -/
def SignalsNews : (q : Request τ) → (Except (Fault τ) ((requests τ).Answer q) → Task τ α) → Prop
  | .schedule s, next => s ≠ .settle ∧ (s.IsNews → ∀ a, Asks (next (.ok a)) (.schedule .wake))
  | _, _ => True

/-- It does so at every request, after every answer. -/
def AlwaysSignals : Task τ α → Prop
  | .done _ => True
  | .ask q next => SignalsNews q next ∧ ∀ a, AlwaysSignals (next a)

omit [Time τ] in
theorem AlwaysSignals.of_follows {p q : Task τ α} {xs : List (Exchange (requests τ) (Fault τ))}
    (hp : AlwaysSignals p) (h : p.Follows xs q) : AlwaysSignals q := by
  induction h with
  | none p => exact hp
  | next _ ih => exact ih (hp.2 _)

omit [Time τ] in
theorem alwaysSignals_wake : AlwaysSignals (step (.wake : Step τ)) :=
  ⟨⟨nofun, nofun⟩, fun _ => trivial⟩

theorem alwaysSignals_scheduleRetry (delay : τ) : AlwaysSignals (scheduleRetry delay) := by
  refine ⟨trivial, fun t => ?_⟩
  cases t with
  | error fault => trivial
  | ok t =>
    refine ⟨⟨nofun, fun _ _ => ⟨_, rfl⟩⟩, fun a => ?_⟩
    cases a with
    | error fault => trivial
    | ok _ => exact alwaysSignals_wake

theorem alwaysSignals_of_calls {p : Task τ Unit} (h : Calls timing p) : AlwaysSignals p := by
  cases h with
  | scheduleRetry delay => exact alwaysSignals_scheduleRetry delay
  | run trigger =>
    refine ⟨trivial, fun a => ?_⟩
    cases a with
    | ok _ => trivial
    | error fault => exact alwaysSignals_scheduleRetry (retryDelay timing fault)
  | stop =>
    refine ⟨⟨nofun, fun _ _ => ⟨_, rfl⟩⟩, fun a => ?_⟩
    cases a with
    | error fault => trivial
    | ok _ => exact alwaysSignals_wake

section Threads

variable {P Q X Y : Pool (requests τ) (Fault τ) (Clocked τ)}
  {es fs gs : List (Event (requests τ) (Fault τ))} {e : Event (requests τ) (Fault τ)}

/-- All threads but the first set the flag as soon as they bring news. -/
def HasCallers (P : Pool (requests τ) (Fault τ) (Clocked τ)) : Prop :=
  ∀ i p, P.threads[i]? = some p → i ≠ 0 → AlwaysSignals p

theorem HasCallers.step (hP : HasCallers P) (hs : Interleaving.Step (calling timing) P e Q) :
    HasCallers Q := by
  intro i q hq hi
  cases hp : P.threads[i]? with
  | some p =>
    obtain ⟨q', hq', hfollows⟩ := hs.follows hp
    obtain rfl : q' = q := Option.some.inj (hq'.symm.trans hq)
    exact (hP i p hp hi).of_follows hfollows
  | none =>
    obtain ⟨_, hstarts⟩ := hs.starts_of_none hp hq
    exact alwaysSignals_of_calls hstarts

/-! ## What the loop hears -/

theorem IsBetween.step {s : Step τ} {i : Nat} (h : IsBetween s fs X i)
    (hs : Interleaving.Step (calling timing) X e Y) :
    (∃ a, e = .answered i ⟨.schedule .wake, a⟩) ∨ IsBetween s (fs ++ [e]) Y i := by
  obtain ⟨⟨xs, a, hxs⟩, p, hp, hasks⟩ := h
  rcases exchanges_single i e with hnone | ⟨x, rfl⟩
  · right
    obtain ⟨p', hp', hfollows⟩ := hs.follows hp
    rw [hnone] at hfollows
    cases hfollows
    exact ⟨⟨xs, a, by rw [exchanges_append, hnone, List.append_nil, hxs]⟩, p, hp', hasks⟩
  · left
    obtain ⟨next, hi, -, -⟩ := hs.exists_asking
    obtain ⟨next', rfl⟩ := hasks
    obtain ⟨q, b⟩ := x
    cases hi.symm.trans hp
    exact ⟨b, rfl⟩

/-- What the loop has found is still so, or the flag is set, or some thread that has changed it is
about to set the flag. -/
def IsSignalled (finds : Schedule τ → Prop) (changes : Step τ → Prop)
    (es : List (Event (requests τ) (Fault τ))) (Q : Pool (requests τ) (Fault τ) (Clocked τ)) :
    Prop :=
  finds Q.shared.schedule ∨ Q.shared.schedule.wakeup = true ∨
    ∃ i s, changes s ∧ IsBetween s es Q i

theorem wakeup_perform {s : Step τ} (hs : s ≠ .settle) {schedule : Schedule τ}
    (h : schedule.wakeup = true) : (s.perform timing schedule).2.wakeup = true := by
  cases s with
  | post due =>
    show (schedule.post due).wakeup = true
    unfold Schedule.post
    split
    · exact h
    · split
      · exact h
      · exact h
  | claim now =>
    show (schedule.claim timing now).2.wakeup = true
    unfold Schedule.claim
    dsimp only
    split
    · exact h
    · exact h
  | settle => exact absurd rfl hs
  | wake => rfl
  | _ => exact h

variable {finds : Schedule τ → Prop} {changes : Step τ → Prop}

/-- Every step keeps this in which the flag is not cleared and news are followed by setting it. -/
theorem IsSignalled.step (h : IsSignalled finds changes fs X)
    (hs : Interleaving.Step (calling timing) X e Y)
    (hfinds : ∀ s schedule, ¬ changes s → finds schedule →
      finds (Step.perform timing s schedule).2)
    (hwakes : ∀ i s a, e = .answered i ⟨.schedule s, a⟩ → s ≠ .settle ∧
      (changes s → ∃ p, Y.threads[i]? = some p ∧ Asks p (.schedule .wake))) :
    IsSignalled finds changes (fs ++ [e]) Y := by
  -- Most steps leave the schedule alone.  Then only a thread that was about to set the flag may
  -- have done so, and in such a step it has not.
  have hkept : Y.shared.schedule = X.shared.schedule →
      (∀ i a, e ≠ .answered i ⟨.schedule .wake, a⟩) → IsSignalled finds changes (fs ++ [e]) Y := by
    intro hsame hno
    unfold IsSignalled
    rw [hsame]
    refine h.imp_right (Or.imp_right ?_)
    rintro ⟨i, s, hchanges, hbetween⟩
    rcases hbetween.step hs with ⟨a, he⟩ | hbetween
    · exact absurd he (hno i a)
    · exact ⟨i, s, hchanges, hbetween⟩
  cases e with
  | interfered =>
    cases hs with
    | interfere hinterferes =>
      obtain ⟨later, -, rfl⟩ := hinterferes
      exact hkept rfl nofun
  | started p =>
    cases hs with
    | start hstarts => exact hkept rfl nofun
  | answered i x =>
    obtain ⟨q, a⟩ := x
    obtain ⟨next, -, hanswer, -⟩ := hs.exists_asking
    cases q with
    | now => exact hkept (congrArg Clocked.schedule hanswer.2) nofun
    | pause time => exact hkept (congrArg Clocked.schedule hanswer) nofun
    | reconcile trigger => exact hkept (congrArg Clocked.schedule hanswer) nofun
    | schedule s =>
      obtain ⟨hsettle, hwakes⟩ := hwakes i s a rfl
      have hperformed : Y.shared.schedule = (s.perform timing X.shared.schedule).2 :=
        congrArg Clocked.schedule hanswer.2
      -- A step that changes what the loop has found is itself followed by setting the flag.
      by_cases hchanges : changes s
      · refine .inr (.inr ⟨i, s, hchanges, ⟨exchanges i fs, a, ?_⟩, hwakes hchanges⟩)
        rw [exchanges_append, exchanges_answered]
      · rcases h with hfound | hflag | ⟨j, s', hchanges', hbetween⟩
        · left
          rw [hperformed]
          exact hfinds s _ hchanges hfound
        · right; left
          rw [hperformed]
          exact wakeup_perform hsettle hflag
        · rcases hbetween.step hs with ⟨b, he⟩ | hbetween
          · right; left
            cases he
            rw [hperformed]
            rfl
          · exact .inr (.inr ⟨j, s', hchanges', hbetween⟩)

/-- As long as the loop itself neither clears the flag nor brings news, this is kept. -/
theorem IsSignalled.run (h : IsSignalled finds changes fs X) (hrun : Run (calling timing) X gs Q)
    (hX : HasCallers X) (hnews : ∀ s, changes s → s.IsNews)
    (hfinds : ∀ s schedule, ¬ changes s → finds schedule →
      finds (Step.perform timing s schedule).2)
    (hloop : ∀ s a, ⟨.schedule s, a⟩ ∈ exchanges 0 gs → s ≠ .settle ∧ ¬ changes s) :
    IsSignalled finds changes (fs ++ gs) Q := by
  induction hrun generalizing fs with
  | stay X =>
    rw [List.append_nil]
    exact h
  | @step X Y Q e gs hs _ ih =>
    rw [exchanges_cons] at hloop
    rw [List.append_cons]
    refine ih (h.step hs hfinds ?_) (hX.step hs)
      fun s a hx => hloop s a (List.mem_append_right _ hx)
    rintro i s a rfl
    obtain ⟨next, hi, hanswer, hnext⟩ := hs.exists_asking
    -- The loop is held to `hloop`, and every other thread sets the flag as soon as it brings news.
    by_cases hi0 : i = 0
    · subst hi0
      obtain ⟨hsettle, hno⟩ := hloop s a (List.mem_append_left _ (by rw [exchanges_answered]; simp))
      exact ⟨hsettle, fun hchanges => absurd hchanges hno⟩
    · obtain ⟨hsettle, hwakes⟩ := (hX i _ hi hi0).1
      refine ⟨hsettle, fun hchanges => ⟨_, hnext, ?_⟩⟩
      obtain rfl : a = .ok (s.perform timing X.shared.schedule).1 := hanswer.1
      exact hwakes (hnews s hchanges) _

end Threads

/-! ## What the loop has done -/

theorem asksOnly_scheduleRetry (delay : τ) :
    (scheduleRetry delay).AsksOnly (Request.IsOfTick (τ := τ)) :=
  behaves_bind (behaves_request fun _ _ => trivial) fun _ _ _ =>
    behaves_bind (behaves_request fun _ _ => trivial) fun _ _ _ =>
      behaves_request fun _ _ => trivial

theorem asksOnly_tick (timing : Timing τ) : (tick timing).AsksOnly (Request.IsOfTick (τ := τ)) := by
  refine behaves_bind (behaves_request fun _ _ => trivial) fun _ _ t => ?_
  refine behaves_bind (behaves_request fun _ _ => trivial) fun _ _ claim => ?_
  cases claim with
  | wait time => exact keeps_pure fun _ _ => trivial
  | run trigger =>
    refine behaves_bind (keeps_recover (behaves_request fun _ _ => trivial) fun _ _ fault => ?_)
      fun _ _ _ => keeps_pure fun _ _ => trivial
    exact asksOnly_scheduleRetry (retryDelay timing fault)

variable {xs : List (Exchange (requests τ) (Fault τ))}

theorem exchanges_of_wait [Time.IsExact τ] {time : τ} (h : (tick timing).Completes xs (.ok time))
    (hpos : 0 < time) :
    ∃ now, xs = [⟨.now, .ok now⟩, ⟨.schedule (.claim now), .ok (.wait time)⟩] := by
  unfold tick at h
  rw [now, completes_request_bind_iff] at h
  obtain ⟨_, -, ⟨⟩⟩ | ⟨t, ys, rfl, h⟩ := h
  rw [step, completes_request_bind_iff] at h
  obtain ⟨_, -, ⟨⟩⟩ | ⟨claim, zs, rfl, h⟩ := h
  cases claim with
  | wait left =>
    obtain ⟨rfl, hleft⟩ := completes_done_iff.1 h
    cases hleft
    exact ⟨t, rfl⟩
  | run trigger =>
    obtain ⟨_, -, ⟨⟩⟩ | ⟨_, _, _, -, hdone, -⟩ := completes_bind_iff.1 h
    obtain ⟨-, hzero⟩ := completes_done_iff.1 hdone
    cases hzero
    exact absurd hpos (Time.IsExact.not_lt.2 (Time.le_refl 0))

/-- What the loop does after a tick is to pause if it was told to wait, and it pauses once. -/
theorem exchanges_of_afterTick {left time : τ}
    {next : Except (Fault τ) Unit → Task τ Bool}
    (h : (afterTick left).Follows xs (.ask (.pause time) next)) :
    xs = [] ∧ left = time ∧ 0 < left := by
  unfold afterTick at h
  split at h
  · next hpos =>
    obtain ⟨next', hpause⟩ | ⟨ys, _, zs, -, hsettle, -⟩ := Follows.asking_of_bind h
    · cases hpause with
      | none => exact ⟨rfl, rfl, hpos⟩
      | next hdone => cases hdone
    · have hkind : (do step .settle; return true : Task τ Bool).AsksOnly
          fun q : Request τ => q = .schedule .settle :=
        behaves_bind (behaves_request fun _ _ => rfl) fun _ _ _ => keeps_pure fun _ _ => trivial
      cases hkind.of_asking hsettle
  · cases h

/-- In a round the loop comes to its pause when it was not to stop and nothing was due. -/
theorem exchanges_of_pause [Time.IsExact τ] {time : τ} {next : Except (Fault τ) Unit → Task τ Bool}
    (h : (round timing).Follows xs (.ask (.pause time) next)) :
    ∃ now, xs = [⟨.schedule .isStopped, .ok false⟩, ⟨.now, .ok now⟩,
      ⟨.schedule (.claim now), .ok (.wait time)⟩] := by
  have hround : round timing = (do
    if ← step .isStopped then pure false else tick timing >>= afterTick) := rfl
  rw [hround] at h
  obtain ⟨_, hstep⟩ | ⟨ys, stopped, zs, hstep, hrest, rfl⟩ := Follows.asking_of_bind h
  · have hkind : (step (.isStopped : Step τ)).AsksOnly
        fun q : Request τ => q = .schedule .isStopped := behaves_request fun _ _ => rfl
    cases hkind.of_asking hstep
  · obtain rfl := completes_request_iff.1 hstep
    cases stopped with
    | true => cases hrest
    | false =>
      obtain ⟨_, htick⟩ | ⟨ys, left, zs, htick, hafter, rfl⟩ := Follows.asking_of_bind hrest
      · exact ((asksOnly_tick timing).of_asking htick).elim
      · obtain ⟨rfl, rfl, hpos⟩ := exchanges_of_afterTick hafter
        obtain ⟨now, rfl⟩ := exchanges_of_wait htick hpos
        exact ⟨now, rfl⟩

/-- Before a pause, the last that the loop has done is to look whether to stop, to read the clock,
and to make its claim. -/
theorem follows_to_pause [Time.IsExact τ] {n : Nat} {time : τ}
    {next : Except (Fault τ) Unit → Task τ Unit}
    (h : (rounds timing n).Follows xs (.ask (.pause time) next)) :
    ∃ ys now, xs = ys ++ [⟨.schedule .isStopped, .ok false⟩, ⟨.now, .ok now⟩,
      ⟨.schedule (.claim now), .ok (.wait time)⟩] := by
  induction n generalizing xs with
  | zero => cases h
  | succ n ih =>
    obtain ⟨_, hround⟩ | ⟨ys, goesOn, zs, -, hrest, rfl⟩ := Follows.asking_of_bind h
    · obtain ⟨now, rfl⟩ := exchanges_of_pause hround
      exact ⟨[], now, rfl⟩
    · cases goesOn with
      | false => cases hrest
      | true =>
        obtain ⟨zs, now, rfl⟩ := ih hrest
        exact ⟨ys ++ zs, now, (List.append_assoc ..).symm⟩

/-! ## What is slept through -/

theorem claim_of_wait {now time : τ} {s : Schedule τ} (h : (s.claim timing now).1 = .wait time) :
    (s.claim timing now).2 = s ∧ now < (s.next timing).1 ∧ time = (s.next timing).1 - now := by
  by_cases hwaits : now < (s.next timing).1
  · have hclaim : s.claim timing now = (.wait ((s.next timing).1 - now), s) := if_pos hwaits
    rw [hclaim] at h ⊢
    cases h
    exact ⟨rfl, hwaits, rfl⟩
  · simp only [Schedule.claim, if_neg hwaits] at h
    cases h

theorem retryAt_perform {due : τ} {s : Step τ} (hs : ¬ ∃ due', s = .post due')
    {schedule : Schedule τ} (h : ∀ r, schedule.retryAt = some r → due ≤ r) :
    ∀ r, (s.perform timing schedule).2.retryAt = some r → due ≤ r := by
  cases s with
  | post due' => exact absurd ⟨due', rfl⟩ hs
  | claim now =>
    show ∀ r, (schedule.claim timing now).2.retryAt = some r → due ≤ r
    unfold Schedule.claim
    dsimp only
    split
    · exact h
    · exact nofun
  | _ => exact h

theorem stopped_perform {s : Step τ} (hs : s ≠ .stop) {schedule : Schedule τ}
    (h : schedule.stopped = false) : (s.perform timing schedule).2.stopped = false := by
  cases s with
  | post due => exact (stopped_post due schedule).trans h
  | claim now => exact (stopped_claim timing now schedule).trans h
  | stop => exact absurd rfl hs
  | resume => rfl
  | _ => exact h

section Pausing

variable {P Q : Pool (requests τ) (Fault τ) (Clocked τ)} {es : List (Event (requests τ) (Fault τ))}
  {time due : τ}

/-- Every retry that is posted after the last claim of the loop and is due before it wakes is
signalled. -/
theorem WaitsFor.isSignalled [Time.IsExact τ] (hP : HasCallers P)
    (h : WaitsFor timing P es Q time due) :
    IsSignalled (fun s => ∀ r, s.retryAt = some r → due ≤ r) (fun s => ∃ due', s = .post due')
      es Q := by
  obtain ⟨-, fs, X, now, ⟨hbefore, Y, gs, hclaim, hrun, rfl⟩, hlast, rfl, -, -⟩ := h
  have hquiet : exchanges 0 gs = [] := by
    rw [List.append_cons, exchanges_append, exchanges_append, exchanges_answered] at hlast
    exact List.append_right_eq_self.1 hlast
  have hX : HasCallers X := hbefore.keeps (fun hP hs => hP.step hs) hP
  obtain ⟨next, -, hanswer, -⟩ := hclaim.exists_asking
  obtain ⟨hwait, hafter⟩ := hanswer
  obtain ⟨hsame, -, -⟩ := claim_of_wait (Except.ok.inj hwait).symm
  have hfound : ∀ r, Y.shared.schedule.retryAt = some r →
      (X.shared.schedule.next timing).1 ≤ r := by
    intro r hr
    rw [hafter] at hr
    exact next_le_of_retryAt (hsame ▸ hr)
  rw [List.append_cons]
  refine IsSignalled.run (.inl hfound) hrun (hX.step hclaim)
    ?_ (fun _ _ hs h => retryAt_perform hs h) ?_
  · rintro s ⟨due', rfl⟩
    trivial
  · rw [hquiet]
    exact fun _ _ hx => absurd hx List.not_mem_nil

/-- Every request to stop that comes after the loop has last looked for one is signalled. -/
theorem isSignalled_stop {ys : List (Exchange (requests τ) (Fault τ))} {now : τ} (hP : HasCallers P)
    (hrun : Run (calling timing) P es Q)
    (hlast : exchanges 0 es = ys ++ [⟨.schedule .isStopped, .ok false⟩, ⟨.now, .ok now⟩,
      ⟨.schedule (.claim now), .ok (.wait time)⟩]) :
    IsSignalled (fun s => s.stopped = false) (· = .stop) es Q := by
  obtain ⟨fs, X, Y, gs, hfs, hlooks, hgs, rfl, -, hrest⟩ := hrun.exists_step_of_exchanges hlast
  have hX : HasCallers X := hfs.keeps (fun hP hs => hP.step hs) hP
  obtain ⟨next, -, ⟨hfound, hafter⟩, -⟩ := hlooks.exists_asking
  have hgoes : Y.shared.schedule.stopped = false := by
    rw [hafter]
    exact (Except.ok.inj hfound).symm
  rw [List.append_cons]
  refine IsSignalled.run (.inl hgoes) hgs (hX.step hlooks)
    ?_ (fun _ _ hs h => stopped_perform hs h) ?_
  · rintro s rfl
    trivial
  · rw [hrest]
    intro s a hx
    simp only [List.mem_cons, List.not_mem_nil, or_false] at hx
    rcases hx with hx | hx
    · cases hx
    · cases hx
      exact ⟨nofun, nofun⟩

/-- While the loop pauses, it has computed for how long from what is due by its last claim.  Unless
the flag is set or is about to be set by who has posted a retry, no retry is due before that, and
unless it is about to be set by who has asked for it, the loop is not to stop. -/
theorem wakeup_not_lost [Time.IsExact τ] {n : Nat} (hloop : P.threads = [rounds timing n])
    (hrun : Run (calling timing) P es Q)
    (hpauses : ∃ p, Q.threads[0]? = some p ∧ Asks p (.pause time)) :
    (∃ due, WaitsFor timing P es Q time due) ∧
      ∀ due, WaitsFor timing P es Q time due → Q.shared.schedule.wakeup = false →
        (∀ i due', ¬ IsBetween (.post due') es Q i) →
          (∀ r, Q.shared.schedule.retryAt = some r → due ≤ r) ∧
          ((∀ i, ¬ IsBetween .stop es Q i) → Q.shared.schedule.stopped = false) := by
  have hP : HasCallers P := by
    intro i p hp hi
    rw [hloop, List.getElem?_singleton, if_neg hi] at hp
    cases hp
  obtain ⟨p, hp, next, rfl⟩ := id hpauses
  -- The loop was there from the beginning, so its own exchanges tell where it is.
  have hfollows : (rounds timing n).Follows (exchanges 0 es) (.ask (.pause time) next) := by
    rcases hrun.follows_from hp with ⟨p, hloop', hfollows⟩ | ⟨hnone, -⟩
    · rw [hloop] at hloop'
      cases hloop'
      exact hfollows
    · rw [hloop] at hnone
      cases hnone
  obtain ⟨ys, now, hlast⟩ := follows_to_pause hfollows
  refine ⟨?_, fun due hwaits hflag hposts => ⟨?_, fun hstops => ?_⟩⟩
  · have hcut : exchanges 0 es = (ys ++ [⟨.schedule .isStopped, .ok false⟩, ⟨.now, .ok now⟩]) ++
        [⟨.schedule (.claim now), .ok (.wait time)⟩] := by
      rw [hlast, List.append_assoc]
      rfl
    -- The run is cut at the last claim: what the pause is computed from is the schedule at that
    -- moment.
    obtain ⟨fs, X, Y, gs, hfs, hclaim, hgs, hes, hbefore, -⟩ := hrun.exists_step_of_exchanges hcut
    obtain ⟨next, -, ⟨hwait, -⟩, -⟩ := hclaim.exists_asking
    obtain ⟨-, hlt, htime⟩ := claim_of_wait (Except.ok.inj hwait).symm
    refine ⟨_, hpauses, fs, X, now, ⟨hfs, Y, gs, hclaim, hgs, hes⟩, ?_, rfl, hlt, htime⟩
    rw [hcut, hbefore]
  · rcases hwaits.isSignalled hP with hfound | hset | ⟨i, s, ⟨due', rfl⟩, hbetween⟩
    · exact hfound
    · rw [hflag] at hset
      cases hset
    · exact absurd hbetween (hposts i due')
  · rcases isSignalled_stop hP hrun hlast with hfound | hset | ⟨i, s, rfl, hbetween⟩
    · exact hfound
    · rw [hflag] at hset
      cases hset
    · exact absurd hbetween (hstops i)

end Pausing

theorem answers_claim_of_lt {K : Type} [Field K] [LinearOrder K] {timing : Timing K} {now : K}
    {s : Clocked K} (h : now < s.schedule.dueAt timing) :
    Clocked.Answers timing (.schedule (.claim now)) s
      (.ok (.wait (s.schedule.dueAt timing - now))) s := by
  show _ = Except.ok (s.schedule.claim timing now).1 ∧
    s = { s with schedule := (s.schedule.claim timing now).2 }
  rw [claim_of_lt h]
  exact ⟨rfl, rfl⟩

/-- While the loop pauses for 300 seconds, a retry is posted that is due in 30.  The loop is woken
and clears the flag, and its next pause is over when the retry is due. -/
theorem wakeup_not_lost_between_pauses :
    ∃ (P Q : Pool (requests ℚ) (Fault ℚ) (Clocked ℚ)) (es : List (Event (requests ℚ) (Fault ℚ)))
      (due : ℚ), P.threads = [rounds Example.timing 3] ∧ Run (calling Example.timing) P es Q ∧
        WaitsFor Example.timing P es Q 30 due ∧ Q.shared.schedule.retryAt = some 30 ∧ due ≤ 30 ∧
        Q.shared.schedule.stopped = false := by
  let timing := Example.timing
  let posted : Schedule ℚ := { lastRun := 0, retryAt := some (0 + 30) }
  have hregular : Clocked.Answers timing (.schedule (.claim 0)) ⟨0, { lastRun := 0 }⟩
      (.ok (.wait 300)) ⟨0, { lastRun := 0 }⟩ := by
    have htime : ({ lastRun := 0 } : Schedule ℚ).dueAt timing - 0 = 300 := by decide +kernel
    rw [← htime]
    exact answers_claim_of_lt (by decide +kernel)
  have hretry : Clocked.Answers timing (.schedule (.claim 0)) ⟨0, posted⟩
      (.ok (.wait 30)) ⟨0, posted⟩ := by
    have htime : posted.dueAt timing - 0 = 30 := by decide +kernel
    rw [← htime]
    exact answers_claim_of_lt (by decide +kernel)
  obtain ⟨es, p, hrun, hpauses⟩ : ∃ es p, Run (calling timing)
      ⟨⟨0, { lastRun := 0 }⟩, [rounds timing 3]⟩ es ⟨⟨0, posted⟩, [p, .done (.ok ())]⟩ ∧
      Asks p (.pause 30) :=
    ⟨[.answered 0 ⟨.schedule .isStopped, .ok false⟩, .answered 0 ⟨.now, .ok 0⟩,
        .answered 0 ⟨.schedule (.claim 0), .ok (.wait 300)⟩, .started (scheduleRetry 30),
        .answered 1 ⟨.now, .ok 0⟩, .answered 1 ⟨.schedule (.post (0 + 30)), .ok ()⟩,
        .answered 1 ⟨.schedule .wake, .ok ()⟩, .answered 0 ⟨.pause 300, .ok ()⟩,
        .answered 0 ⟨.schedule .settle, .ok ()⟩, .answered 0 ⟨.schedule .isStopped, .ok false⟩,
        .answered 0 ⟨.now, .ok 0⟩, .answered 0 ⟨.schedule (.claim 0), .ok (.wait 30)⟩], _,
      .step (.answer rfl ⟨rfl, rfl⟩) <| .step (.answer rfl ⟨rfl, rfl⟩) <|
        .step (.answer rfl hregular) <| .step (.start (.scheduleRetry 30)) <|
        .step (.answer rfl ⟨rfl, rfl⟩) <| .step (.answer rfl ⟨rfl, rfl⟩) <|
        .step (.answer rfl ⟨rfl, rfl⟩) <| .step (.answer rfl rfl) <|
        .step (.answer rfl ⟨rfl, rfl⟩) <| .step (.answer rfl ⟨rfl, rfl⟩) <|
        .step (.answer rfl ⟨rfl, rfl⟩) <| .step (.answer rfl hretry) <| .stay _,
      _, rfl⟩
  have hnobody : ∀ i s, ¬ IsBetween s es (⟨⟨0, posted⟩, [p, .done (.ok ())]⟩ :
      Pool (requests ℚ) (Fault ℚ) (Clocked ℚ)) i := by
    obtain ⟨next, rfl⟩ := hpauses
    rintro (_ | _ | i) s ⟨-, p', hp', next', rfl⟩
    · cases hp'
    · cases hp'
    · cases hp'
  obtain ⟨⟨due, hwaits⟩, hsignalled⟩ := wakeup_not_lost rfl hrun ⟨p, rfl, hpauses⟩
  obtain ⟨hdue, hstop⟩ := hsignalled due hwaits rfl fun i due' => hnobody i (.post due')
  have hthirty : posted.retryAt = some 30 := congrArg some (zero_add 30)
  exact ⟨_, _, _, due, rfl, hrun, hwaits, hthirty, hdue 30 hthirty, hstop fun i => hnobody i .stop⟩

end SecretMirror.Resync
