import Mathlib.Data.Rat.Floor
import SecretMirror.Proofs.Apart
import SecretMirror.Proofs.Bookkeeping
import SecretMirror.Proofs.Completion
import SecretMirror.Proofs.ExactTime

/-!
# Calls of the API are kept apart

Calls of the API share the time at which the last of them began.  A `CallClock` is this time and a
clock that never goes back; it sleeps at least as long as it is asked to.  `Calls` are calls made
one after another, each of any function, which may return or fail, while time passes between them
and during them.

Each call reads the clock twice and the time of the last call once, sleeps in between if it has come
too early, and notes the second reading as its own time (`turn`).  From this it is told what one
call keeps (`completes_spaced`): the time of the last call is not in the future, and the next one is
at least the spacing later.  Then the function is called once, and what it comes to is what the call
comes to.  A whole series is `Paced`, so its calls are kept apart (`calls_apart`).
-/

namespace SecretMirror.Operator

open Interleaving
open Program hiding bind ask

variable {τ : Type}

/-! ## A clock and the time of the last call -/

/-- The clock that calls read, and when the last of them began. -/
structure CallClock (τ : Type) where
  clock : τ
  lastCall : τ

/-- Time passes, and no call begins. -/
structure CallClock.Waits [LE τ] (s t : CallClock τ) : Prop where
  clock : s.clock ≤ t.clock
  lastCall : t.lastCall = s.lastCall

/-- How a request is answered.  Time may pass at every one of them, and a sleep may take longer than
was asked for.  What has nothing to do with turns may be answered in any way. -/
def CallClock.Answers [Time τ] : (q : Request τ) → CallClock τ →
    Except (Fault τ) ((requests τ).Answer q) → CallClock τ → Prop
  | .now, s, a, t => s.Waits t ∧ a = .ok t.clock
  | .sleep time, s, a, t => s.Waits t ∧ s.clock + time ≤ t.clock ∧ a = .ok ()
  | .lastCall, s, a, t => s.Waits t ∧ a = .ok s.lastCall
  | .recordCall time, s, a, t => s.clock ≤ t.clock ∧ t.lastCall = time ∧ a = .ok ()
  | _, s, _, t => s.Waits t

/-- A clock as what calls share.  They are not made side by side, so nothing is started. -/
def CallClock.medium [Time τ] : Medium (requests τ) (Fault τ) (CallClock τ) where
  answers := CallClock.Answers
  interferes := CallClock.Waits
  starts _ _ := False

/-! ## Calls -/

/-- A call of a function, what was asked in it and how it ended. -/
structure Call (τ : Type) where
  {Value : Type}
  wrapped : Task τ Value
  exchanges : List (Exchange (requests τ) (Fault τ))
  result : Except (Fault τ) Value

/-- The function itself has nothing to do with the spacing of calls, whatever else it asks. -/
def Call.IsPlain (c : Call τ) : Prop :=
  c.wrapped.AsksOnly fun q : Request τ => ¬ q.TakesTurn

/-- Calls made one after another, while time passes between them. -/
inductive Calls [Time τ] (rate : τ) : CallClock τ → List (Call τ) → CallClock τ → Prop where
  | none (s : CallClock τ) : Calls rate s [] s
  | wait {s t u : CallClock τ} {cs : List (Call τ)} :
      s.Waits t → Calls rate t cs u → Calls rate s cs u
  | call {s t u : CallClock τ} {c : Call τ} {cs : List (Call τ)} :
      c.IsPlain →
      (spaced rate c.wrapped).Completes c.exchanges c.result →
      CallClock.medium.Grants s c.exchanges t → Calls rate t cs u → Calls rate s (c :: cs) u

def startOf? : Exchange (requests τ) (Fault τ) → Option τ
  | ⟨.recordCall time, _⟩ => some time
  | _ => none

/-- When the calls began, as they have noted it. -/
def starts (cs : List (Call τ)) : List τ :=
  cs.flatMap fun c => c.exchanges.filterMap startOf?

/-- What a call does at `time` before it is made at `start`: it sleeps if it has come too early
after the one at `last`. -/
def turn [Time τ] (rate last time start : τ) : List (Exchange (requests τ) (Fault τ)) :=
  [⟨.now, .ok time⟩, ⟨.lastCall, .ok last⟩] ++
    ((RateLimit.wait? (1 / rate) time last).toList.map fun pause => ⟨.sleep pause, .ok ()⟩) ++
    [⟨.now, .ok start⟩, ⟨.recordCall start, .ok ()⟩]

/-- A call comes at `time` after one that began at `last`, and begins at `start`.  After its turn
its function is called, once (`own`), and the call ends as that does.  It sleeps at most for the
spacing, and only if it has come less than that after the last call. -/
structure Call.IsPaced [Time τ] (c : Call τ) (rate last time start : τ)
    (own : List (Exchange (requests τ) (Fault τ))) : Prop where
  exchanges : c.exchanges = turn rate last time start ++ own
  wrapped : c.wrapped.Completes own c.result
  plain : ∀ x ∈ own, ¬ x.request.TakesTurn
  sleeps : ∀ pause, ⟨.sleep pause, .ok ()⟩ ∈ c.exchanges →
    pause ≤ 1 / rate ∧ time - last < 1 / rate
  start : last + 1 / rate ≤ start

/-- Each call is paced after the one before, the first one after a call at `last`. -/
inductive Paced [Time τ] (rate : τ) : τ → List (Call τ) → Prop where
  | none (last : τ) : Paced rate last []
  | next {last time start : τ} {c : Call τ} {cs : List (Call τ)}
      {own : List (Exchange (requests τ) (Fault τ))} :
      c.IsPaced rate last time start own → Paced rate start cs → Paced rate last (c :: cs)

section

variable {K : Type} [Field K] [LinearOrder K] {rate last time start : K}
  {s t u : CallClock K} {xs : List (Exchange (requests K) (Fault K))}

/-! ## Turns -/

theorem CallClock.Waits.trans (h : s.Waits t) (h' : t.Waits u) : s.Waits u :=
  ⟨h.clock.trans h'.clock, h'.lastCall.trans h.lastCall⟩

theorem waits_of_plain (hplain : ∀ x ∈ xs, ¬ x.request.TakesTurn)
    (h : CallClock.medium.Grants s xs t) : s.Waits t := by
  induction h with
  | none s => exact ⟨le_rfl, rfl⟩
  | @next s t u x xs hx _ ih =>
    obtain ⟨hhead, hrest⟩ := List.forall_mem_cons.1 hplain
    have hstep : s.Waits t := by
      obtain ⟨q, a⟩ := x
      cases q with
      | now => exact absurd trivial hhead
      | sleep time => exact absurd trivial hhead
      | lastCall => exact absurd trivial hhead
      | recordCall time => exact absurd trivial hhead
      | _ => exact hx
    exact hstep.trans (ih hrest)

/-- A pause is what is missing of the spacing, so it is positive and ends when the spacing does. -/
theorem wait?_eq_some_iff {spacing pause : K} :
    RateLimit.wait? spacing time last = some pause ↔
      time - last < spacing ∧ pause = spacing - (time - last) := by
  rw [RateLimit.wait?]
  by_cases h : time - last < spacing
  · simp [h, eq_comm]
  · simp [h]

theorem wait?_eq_none_iff {spacing : K} :
    RateLimit.wait? spacing time last = none ↔ spacing ≤ time - last := by
  rw [RateLimit.wait?]
  by_cases h : time - last < spacing
  · simp [h]
  · simp [h, not_lt.1 h]

theorem sleep_mem_turn {pause : K} (h : ⟨.sleep pause, .ok ()⟩ ∈ turn rate last time start) :
    RateLimit.wait? (1 / rate) time last = some pause := by
  simp only [turn, List.mem_append, List.mem_cons, List.mem_map, List.not_mem_nil, or_false] at h
  rcases h with ((h | h) | ⟨p, hp, h⟩) | (h | h)
  · cases h
  · cases h
  · cases h
    exact Option.mem_toList.1 hp
  · cases h
  · cases h

theorem filterMap_startOf?_turn :
    (turn rate last time start).filterMap startOf? = [start] := by
  rw [turn]
  cases RateLimit.wait? (1 / rate) time last with
  | none => rfl
  | some pause => rfl

theorem Call.IsPaced.starts_cons {c : Call K} {own : List (Exchange (requests K) (Fault K))}
    (h : c.IsPaced rate last time start own) (cs : List (Call K)) :
    starts (c :: cs) = start :: starts cs := by
  have hown : own.filterMap startOf? = [] := by
    rw [List.filterMap_eq_nil_iff]
    intro x hx
    have hplain := h.plain x hx
    obtain ⟨q, a⟩ := x
    cases q with
    | recordCall time => exact absurd trivial hplain
    | _ => rfl
  rw [starts, List.flatMap_cons, h.exchanges, List.filterMap_append, filterMap_startOf?_turn, hown]
  rfl

/-- Calls that are paced are kept apart, from the last call before them too. -/
theorem Paced.apart {cs : List (Call K)} (h : Paced rate last cs) :
    Apart (1 / rate) (last :: starts cs) := by
  induction h with
  | none last => exact List.isChain_singleton last
  | next hpaced _ ih =>
    rw [hpaced.starts_cons]
    exact List.isChain_cons_cons.2 ⟨hpaced.start, ih⟩

/-- With a positive rate there is a spacing. -/
theorem ofExcept_spacing_bind {β : Type} (hrate : 0 < rate) (f : K → Task K β) :
    (Program.ofExcept (RateLimit.spacing rate) >>= f) = f (1 / rate) := by
  have hspacing : RateLimit.spacing rate = .ok (1 / rate) := by
    rw [RateLimit.spacing, if_neg]
    exact fun hzero => hrate.ne' (of_decide_eq_true hzero)
  rw [hspacing]
  rfl

/-- A turn can be taken at any time after any last call. -/
theorem completes_turn (hrate : 0 < rate) (last time start : K) :
    (takeTurn rate).Completes (turn rate last time start) (.ok ()) := by
  rw [takeTurn, ofExcept_spacing_bind hrate, turn]
  refine .next (.next ?_)
  simp only [outcome_done, resume_ok]
  cases RateLimit.wait? (1 / rate) time last with
  | none => exact .next (.next (.none _))
  | some pause => exact .next (.next (.next (.none _)))

theorem completes_spaced_of {c : Call K} {own : List (Exchange (requests K) (Fault K))}
    (hrate : 0 < rate) (hexchanges : c.exchanges = turn rate last time start ++ own)
    (hown : c.wrapped.Completes own c.result) :
    (spaced rate c.wrapped).Completes c.exchanges c.result := by
  rw [spaced, hexchanges]
  exact completes_bind_iff.2 (.inr ⟨_, (), own, completes_turn hrate last time start, hown, rfl⟩)

/-! ## One call -/

theorem completes_begin {r : Except (Fault K) Unit}
    (h : (do
      let start ← now
      ask (.recordCall start) : Task K Unit).Completes xs r)
    (hgrants : CallClock.medium.Grants s xs t) :
    ∃ start, xs = [⟨.now, .ok start⟩, ⟨.recordCall start, .ok ()⟩] ∧ r = .ok () ∧
      s.clock ≤ start ∧ start ≤ t.clock ∧ t.lastCall = start := by
  rcases completes_request_bind_iff.1 h with ⟨fault, rfl, -⟩ | ⟨start, ys, rfl, hnotes⟩
  · obtain ⟨s₁, ⟨-, hnow⟩, -⟩ := Medium.grants_cons_iff.1 hgrants
    cases hnow
  · obtain rfl := completes_request_iff.1 hnotes
    obtain ⟨s₁, ⟨hwaits, hnow⟩, hgrants⟩ := Medium.grants_cons_iff.1 hgrants
    obtain ⟨s₂, ⟨hclock, hlast, hanswer⟩, hgrants⟩ := Medium.grants_cons_iff.1 hgrants
    cases hgrants
    obtain rfl : start = s₁.clock := Except.ok.inj hnow
    have hr : r = .ok () := hanswer
    subst hr
    exact ⟨s₁.clock, rfl, rfl, hwaits.clock, hclock, hlast⟩

variable [IsStrictOrderedRing K]

/-- A turn is taken at once, or after a pause, and ends with the time of the last call at least the
spacing later than it was. -/
theorem completes_takeTurn (hrate : 0 < rate) (hlast : s.lastCall ≤ s.clock)
    {r : Except (Fault K) Unit} (h : (takeTurn rate).Completes xs r)
    (hgrants : CallClock.medium.Grants s xs t) :
    ∃ time start, xs = turn rate s.lastCall time start ∧ r = .ok () ∧ s.lastCall ≤ time ∧
      s.lastCall + 1 / rate ≤ start ∧ t.lastCall = start ∧ start ≤ t.clock := by
  rw [takeTurn, ofExcept_spacing_bind hrate] at h
  rcases completes_request_bind_iff.1 h with ⟨fault, rfl, -⟩ | ⟨time, ys, rfl, hasks⟩
  · obtain ⟨s₁, ⟨-, hnow⟩, -⟩ := Medium.grants_cons_iff.1 hgrants
    cases hnow
  obtain ⟨s₁, ⟨hwaits₁, hnow⟩, hgrants₁⟩ := Medium.grants_cons_iff.1 hgrants
  obtain rfl : time = s₁.clock := Except.ok.inj hnow
  rcases completes_request_bind_iff.1 hasks with ⟨fault, rfl, -⟩ | ⟨last, zs, rfl, hrest⟩
  · obtain ⟨s₂, ⟨-, hasked⟩, -⟩ := Medium.grants_cons_iff.1 hgrants₁
    cases hasked
  obtain ⟨s₂, ⟨hwaits₂, hasked⟩, hgrants₂⟩ := Medium.grants_cons_iff.1 hgrants₁
  obtain rfl : last = s.lastCall := (Except.ok.inj hasked).trans hwaits₁.lastCall
  have hpassed : s.lastCall ≤ s₁.clock := hlast.trans hwaits₁.clock
  have hclock : s₁.clock ≤ s₂.clock := hwaits₂.clock
  -- Without a pause the last call is far enough behind; otherwise the pause makes up for it.
  cases hwait : RateLimit.wait? (1 / rate) s₁.clock s.lastCall with
  | none =>
    rw [hwait] at hrest
    obtain ⟨start, rfl, rfl, hstart, hafter, hnoted⟩ := completes_begin hrest hgrants₂
    have hfar : 1 / rate ≤ s₁.clock - s.lastCall := wait?_eq_none_iff.1 hwait
    exact ⟨s₁.clock, start, by rw [turn, hwait]; rfl, rfl, hpassed, by linarith, hnoted, hafter⟩
  | some pause =>
    rw [hwait] at hrest
    obtain ⟨-, hpause⟩ := wait?_eq_some_iff.1 hwait
    rcases completes_request_bind_iff.1 hrest with ⟨fault, rfl, -⟩ | ⟨slept, ws, rfl, hbegins⟩
    · obtain ⟨s₃, ⟨-, -, hslept⟩, -⟩ := Medium.grants_cons_iff.1 hgrants₂
      cases hslept
    obtain ⟨s₃, ⟨-, hsleeps, -⟩, hgrants₃⟩ := Medium.grants_cons_iff.1 hgrants₂
    obtain ⟨start, rfl, rfl, hstart, hafter, hnoted⟩ := completes_begin hbegins hgrants₃
    have hsum : s₂.clock + pause ≤ s₃.clock := hsleeps
    exact ⟨s₁.clock, start, by rw [turn, hwait]; rfl, rfl, hpassed, by linarith, hnoted, hafter⟩

/-- One call is paced after the last one, and is the last one then. -/
theorem completes_spaced {c : Call K} (hrate : 0 < rate) (hlast : s.lastCall ≤ s.clock)
    (hplain : c.IsPlain)
    (h : (spaced rate c.wrapped).Completes c.exchanges c.result)
    (hgrants : CallClock.medium.Grants s c.exchanges t) :
    ∃ time start own, c.IsPaced rate s.lastCall time start own ∧ t.lastCall = start ∧
      start ≤ t.clock := by
  rw [spaced] at h
  rcases completes_bind_iff.1 h with ⟨fault, hfails, -⟩ | ⟨xs, done, own, htaken, hown, hsplit⟩
  · obtain ⟨time, start, -, hr, -⟩ := completes_takeTurn hrate hlast hfails hgrants
    cases hr
  rw [hsplit] at hgrants
  obtain ⟨u, hxs, hys⟩ := Medium.grants_append_iff.1 hgrants
  obtain ⟨time, start, rfl, -, hcame, hfar, hnoted, hafter⟩ :=
    completes_takeTurn hrate hlast htaken hxs
  have hown' : ∀ x ∈ own, ¬ x.request.TakesTurn := hplain.of_follows hown
  have hwaits : u.Waits t := waits_of_plain hown' hys
  refine ⟨time, start, own, ⟨hsplit, hown, hown', fun pause hpause => ?_, hfar⟩,
    hwaits.lastCall.trans hnoted, hafter.trans hwaits.clock⟩
  rw [hsplit] at hpause
  rcases List.mem_append.1 hpause with hpause | hpause
  · obtain ⟨hearly, rfl⟩ := wait?_eq_some_iff.1 (sleep_mem_turn hpause)
    have hnonneg : 0 ≤ time - s.lastCall := sub_nonneg.2 hcame
    exact ⟨by linarith, hearly⟩
  · exact absurd trivial (hown' _ hpause)

/-! ## Whole series -/

/-- In a series of calls each one is paced after the one before. -/
theorem Calls.paced {cs : List (Call K)} (hrate : 0 < rate) (h : Calls rate s cs t)
    (hlast : s.lastCall ≤ s.clock) : Paced rate s.lastCall cs := by
  induction h with
  | none s => exact .none _
  | @wait s t u cs hwaits _ ih =>
    have hlater : t.lastCall ≤ t.clock := by
      rw [hwaits.lastCall]
      exact hlast.trans hwaits.clock
    have hrest : Paced rate t.lastCall cs := ih hlater
    rwa [hwaits.lastCall] at hrest
  | @call s t u c cs hplain hc hgrants _ ih =>
    obtain ⟨time, start, own, hpaced, rfl, hafter⟩ :=
      completes_spaced hrate hlast hplain hc hgrants
    exact .next hpaced (ih hafter)

/-- Calls made one after another, by a clock that has a reading not below zero at first, begin at
least the spacing apart, so not many of them begin within any period.  Each calls its function once
and ends as that does; it sleeps at most for the spacing, and only if it has come less than that
after the one before, or after the time zero if it is the first. -/
theorem calls_apart [FloorSemiring K] {cs : List (Call K)} (hrate : 0 < rate)
    (hclock : 0 ≤ s.clock) (hlast : s.lastCall = 0) (h : Calls rate s cs t) :
    Apart (1 / rate) (starts cs) ∧
      (∀ a L, countWithin a L (starts cs) ≤ ⌊L * rate⌋₊ + 1) ∧
      Paced rate 0 cs := by
  have hpaced : Paced rate 0 cs := by
    rw [← hlast]
    exact h.paced hrate (hlast.le.trans hclock)
  have hapart : Apart (1 / rate) (starts cs) := hpaced.apart.tail
  refine ⟨hapart, fun a L => ?_, hpaced⟩
  have hcount := hapart.countWithin_le (one_div_pos.2 hrate) a L
  rwa [div_div_eq_mul_div, div_one] at hcount

end

namespace Example

/-- A read that fails, made at five seconds. -/
def failedRead : Call ℚ where
  wrapped := ask (.read (.text "apps") (.text "config"))
  exchanges := turn 10 0 5 5 ++
    [⟨.read (.text "apps") (.text "config"), .error (.plain .timeout "timed out")⟩]
  result := .error (.plain .timeout "timed out")

def body : WireSecret := {}

/-- A creation that comes a fiftieth of a second later, is slept for too long, and succeeds. -/
def creation : Call ℚ where
  wrapped := ask (.create (.text "apps") body)
  exchanges := turn 10 5 (251 / 50) (26 / 5) ++ [⟨.create (.text "apps") body, .ok none⟩]
  result := .ok none

theorem grants_failedRead : CallClock.medium.Grants ⟨5, 0⟩ failedRead.exchanges ⟨5, 5⟩ := by
  have hwait : RateLimit.wait? (1 / 10 : ℚ) 5 0 = none := by norm_num [RateLimit.wait?]
  rw [failedRead, turn, hwait]
  refine .next (t := ⟨5, 0⟩) ⟨⟨le_rfl, rfl⟩, rfl⟩ (.next (t := ⟨5, 0⟩) ⟨⟨le_rfl, rfl⟩, rfl⟩ ?_)
  refine .next (t := ⟨5, 0⟩) ⟨⟨le_rfl, rfl⟩, rfl⟩ (.next (t := ⟨5, 5⟩) ⟨le_rfl, rfl, rfl⟩ ?_)
  exact .next ⟨le_rfl, rfl⟩ (.none _)

theorem grants_creation :
    CallClock.medium.Grants ⟨251 / 50, 5⟩ creation.exchanges ⟨26 / 5, 26 / 5⟩ := by
  have hwait : RateLimit.wait? (1 / 10 : ℚ) (251 / 50) 5 = some (2 / 25) := by
    norm_num [RateLimit.wait?]
  rw [creation, turn, hwait]
  refine .next (t := ⟨251 / 50, 5⟩) ⟨⟨le_rfl, rfl⟩, rfl⟩ ?_
  refine .next (t := ⟨251 / 50, 5⟩) ⟨⟨le_rfl, rfl⟩, rfl⟩ ?_
  refine .next (t := ⟨26 / 5, 5⟩) ⟨⟨by norm_num, rfl⟩, by norm_num, rfl⟩ ?_
  refine .next (t := ⟨26 / 5, 5⟩) ⟨⟨le_rfl, rfl⟩, rfl⟩ ?_
  exact .next (t := ⟨26 / 5, 26 / 5⟩) ⟨le_rfl, rfl, rfl⟩ (.next ⟨le_rfl, rfl⟩ (.none _))

theorem calls : Calls 10 ⟨5, 0⟩ [failedRead, creation] (⟨26 / 5, 26 / 5⟩ : CallClock ℚ) := by
  have hrate : (0 : ℚ) < 10 := by norm_num
  have hwaits : (⟨5, 5⟩ : CallClock ℚ).Waits ⟨251 / 50, 5⟩ := ⟨by norm_num, rfl⟩
  have hread : (spaced 10 failedRead.wrapped).Completes failedRead.exchanges failedRead.result :=
    completes_spaced_of hrate rfl (completes_request_iff.2 rfl)
  have hcreation : (spaced 10 creation.wrapped).Completes creation.exchanges creation.result :=
    completes_spaced_of hrate rfl (completes_request_iff.2 rfl)
  refine .call (behaves_request fun _ _ => not_false) hread grants_failedRead (.wait hwaits ?_)
  exact .call (behaves_request fun _ _ => not_false) hcreation grants_creation (.none _)

end Example

open Operator.Example in
/-- A creation that comes soon after a failed read begins a fifth of a second after it. -/
theorem calls_apart_after_failure :
    Apart (1 / 10) (starts [failedRead, creation]) ∧
      starts [failedRead, creation] = [5, 26 / 5] := by
  obtain ⟨hapart, -, -⟩ := calls_apart (by norm_num) (by norm_num) rfl calls
  refine ⟨hapart, ?_⟩
  simp only [starts, List.flatMap_cons, List.flatMap_nil, List.append_nil, failedRead, creation,
    List.filterMap_append, filterMap_startOf?_turn]
  rfl

end SecretMirror.Operator
