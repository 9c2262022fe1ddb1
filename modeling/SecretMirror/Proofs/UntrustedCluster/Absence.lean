import SecretMirror.Proofs.Completion
import SecretMirror.Proofs.CachingContract
import SecretMirror.Proofs.Deciding
import SecretMirror.Proofs.UntrustedCluster

/-!
# Nothing is written where there is no canonical secret

When the API says that there is no canonical secret (`SaysAbsent`), the look-up that has asked for
it finds nothing (`learns_lookUp`), so the synchronisation ends there.  What a program makes of such
an answer is followed through its parts by `Learns`.  Around the synchronisation an activity makes
no calls of the API.  Hence on no way that an activity can go is there both such an answer and a
write, in whatever order (`neverWritesIfAbsent_activity`).
-/

namespace SecretMirror

open Operator
open Program hiding bind ask

variable {τ : Type}

/-- The API says that there is no canonical secret. -/
def SaysAbsent : Exchange (requests τ) (Fault τ) → Prop
  | ⟨.read space name, .error fault⟩ => Key.ofValues space name = .ok .source ∧
    fault.isApi = true ∧ fault.statusOf.isNumber 404 = true
  | _ => False

/-- Either the API has not said that there is no canonical secret, or nothing was written. -/
def RespectsAbsence (xs : List (Exchange (requests τ) (Fault τ))) : Prop :=
  ∀ x ∈ xs, SaysAbsent x → ∀ y ∈ xs, y.request.write? = none

/-- On no way that a program can go there are both, in whatever order. -/
def NeverWritesIfAbsent {α : Type} (p : Task τ α) : Prop := ∀ xs r, p.Completes xs r →
    RespectsAbsence xs

variable {α β : Type} {xs ys : List (Exchange (requests τ) (Fault τ))}

theorem SaysAbsent.isCall {x : Exchange (requests τ) (Fault τ)} (h : SaysAbsent x) :
    x.request.IsCall := by
  unfold SaysAbsent at h
  split at h
  · trivial
  · exact h.elim

theorem write?_of_not_isCall {q : Operator.Request τ} (h : ¬ q.IsCall) : q.write? = none := by
  cases q <;> first | rfl | exact absurd trivial h

/-! ## What is learnt from it -/

/-- Wherever the API says so on the way of the program, its result is of some kind. -/
def Learns (p : Task τ α) (R : Except (Fault τ) α → Prop) : Prop :=
  ∀ xs r, p.Completes xs r → (∃ x ∈ xs, SaysAbsent x) → R r

section

variable {p : Task τ α} {P : Except (Fault τ) α → Prop} {R : Except (Fault τ) β → Prop}

theorem learns_of_callsNothing (hp : CallsNothing p) (P : Except (Fault τ) α → Prop) : Learns p P :=
  fun _ _ h ⟨x, hx, habsent⟩ => absurd habsent.isCall (hp.of_follows h x hx)

theorem learns_outcome {f : Except (Fault τ) α → Task τ β} (hp : Learns p P)
    (hrest : ∀ a, P a → ∀ ys r, (f a).Completes ys r → R r) (hf : ∀ a, Learns (f a) R) :
    Learns (p.outcome f) R := by
  rintro xs r h ⟨x, hx, habsent⟩
  obtain ⟨ys, a, zs, hfirst, hlater, rfl⟩ := completes_outcome_iff.1 h
  rcases List.mem_append.1 hx with hx | hx
  · exact hrest a (hp ys a hfirst ⟨x, hx, habsent⟩) zs r hlater
  · exact hf a zs r hlater ⟨x, hx, habsent⟩

theorem learns_bind {f : α → Task τ β} (hp : Learns p P)
    (hok : ∀ a, P (.ok a) → ∀ ys r, (f a).Completes ys r → R r)
    (herror : ∀ e, P (.error e) → R (.error e)) (hf : ∀ a, Learns (f a) R) :
    Learns (p >>= f) R := by
  rw [bind_eq_outcome]
  refine learns_outcome hp (fun a ha ys r h => ?_) fun a => ?_
  · cases a with
    | ok a => exact hok a ha ys r h
    | error e =>
      obtain ⟨-, rfl⟩ := completes_done_iff.1 h
      exact herror e ha
  · cases a with
    | ok a => exact hf a
    | error e => exact learns_of_callsNothing keeps_error R

theorem learns_bind_of_callsNothing {f : α → Task τ β} (hp : CallsNothing p)
    (hf : ∀ a, Learns (f a) R) : Learns (p >>= f) R :=
  learns_bind (learns_of_callsNothing hp fun _ => False) (fun _ h => h.elim) (fun _ h => h.elim) hf

end

/-! ## Ways without a write -/

theorem respectsAbsence_of_not_saysAbsent (h : ∀ x ∈ xs, ¬ SaysAbsent x) : RespectsAbsence xs :=
  fun x hx habsent => absurd habsent (h x hx)

theorem respectsAbsence_of_write? (h : ∀ y ∈ xs, y.request.write? = none) : RespectsAbsence xs :=
  fun _ _ _ => h

theorem RespectsAbsence.append_of_left (hxs : ∀ x ∈ xs, ¬ x.request.IsCall)
    (h : RespectsAbsence ys) :
    RespectsAbsence (xs ++ ys) := by
  intro x hx habsent y hy
  have hx : x ∈ ys := (List.mem_append.1 hx).resolve_left fun hx => hxs x hx habsent.isCall
  rcases List.mem_append.1 hy with hy | hy
  · exact write?_of_not_isCall (hxs y hy)
  · exact h x hx habsent y hy

theorem RespectsAbsence.append_of_right (h : RespectsAbsence xs)
    (hys : ∀ y ∈ ys, ¬ y.request.IsCall) :
    RespectsAbsence (xs ++ ys) := by
  intro x hx habsent y hy
  have hx : x ∈ xs := (List.mem_append.1 hx).resolve_right fun hx => hys x hx habsent.isCall
  rcases List.mem_append.1 hy with hy | hy
  · exact h x hx habsent y hy
  · exact write?_of_not_isCall (hys y hy)

theorem neverWritesIfAbsent_of_callsNothing {p : Task τ α} (hp : CallsNothing p) :
    NeverWritesIfAbsent p :=
  fun _ _ h => respectsAbsence_of_write? fun y hy => write?_of_not_isCall (hp.of_follows h y hy)

theorem neverWritesIfAbsent_outcome_of_left {p : Task τ α} {f : Except (Fault τ) α → Task τ β}
    (hp : CallsNothing p) (hf : ∀ a, NeverWritesIfAbsent (f a)) :
    NeverWritesIfAbsent (p.outcome f) := by
  intro xs r h
  obtain ⟨ys, a, zs, hfirst, hrest, rfl⟩ := completes_outcome_iff.1 h
  exact (hf a zs r hrest).append_of_left (hp.of_follows hfirst)

theorem neverWritesIfAbsent_outcome_of_right {p : Task τ α} {f : Except (Fault τ) α → Task τ β}
    (hp : NeverWritesIfAbsent p) (hf : ∀ a, CallsNothing (f a)) :
    NeverWritesIfAbsent (p.outcome f) := by
  intro xs r h
  obtain ⟨ys, a, zs, hfirst, hrest, rfl⟩ := completes_outcome_iff.1 h
  exact (hp ys a hfirst).append_of_right ((hf a).of_follows hrest)

theorem neverWritesIfAbsent_bind_of_left {p : Task τ α} {f : α → Task τ β} (hp : CallsNothing p)
    (hf : ∀ a, NeverWritesIfAbsent (f a)) : NeverWritesIfAbsent (p >>= f) := by
  refine neverWritesIfAbsent_outcome_of_left hp fun a => ?_
  cases a with
  | ok a => exact hf a
  | error fault => exact neverWritesIfAbsent_of_callsNothing keeps_error

theorem neverWritesIfAbsent_bind_of_right {p : Task τ α} {f : α → Task τ β}
    (hp : NeverWritesIfAbsent p)
    (hf : ∀ a, CallsNothing (f a)) : NeverWritesIfAbsent (p >>= f) := by
  refine neverWritesIfAbsent_outcome_of_right hp fun a => ?_
  cases a with
  | ok a => exact hf a
  | error fault => exact keeps_error

/-- The request does not read the canonical secret, so it cannot be answered that there is none. -/
def Operator.Request.AvoidsSource : Operator.Request τ → Prop
  | .read space name => Key.ofValues space name ≠ .ok .source
  | _ => True

theorem Operator.Request.IsInert.avoidsSource {q : Operator.Request τ} (h : q.IsInert) :
    q.AvoidsSource := by
  cases q <;> first | exact trivial | exact h.elim

theorem not_saysAbsent_of_avoidsSource {p : Task τ α}
    (hp : p.AsksOnly Operator.Request.AvoidsSource) {r : Except (Fault τ) α}
    (h : p.Completes xs r) : ∀ x ∈ xs, ¬ SaysAbsent x := by
  intro x hx habsent
  have havoids := hp.of_follows h x hx
  unfold SaysAbsent at habsent
  split at habsent
  · exact havoids habsent.1
  · exact habsent

/-! ## Look-ups -/

def IsMissing (r : Except (Fault τ) α) : Prop :=
  ∃ fault, r = .error fault ∧ fault.isApi = true ∧ fault.statusOf.isNumber 404 = true

/-- The look-up has found nothing, or it has failed. -/
def FindsNothing (r : Except (Fault τ) (Option α)) : Prop := ∀ a, r ≠ .ok (some a)

variable [Time τ]

theorem callsNothing_takeTurn (rate : τ) : CallsNothing (takeTurn rate) :=
  asksOnly_takeTurn (fun _ hq => hq.isInert.not_isCall) (fun _ => id) rate

theorem learns_read (rate : τ) (space name : Value) :
    Learns (spaced rate (Operator.ask (.read space name))) IsMissing := by
  rw [spaced]
  refine learns_bind_of_callsNothing (callsNothing_takeTurn rate) fun _ => ?_
  rintro xs r h ⟨x, hx, habsent⟩
  obtain rfl := completes_request_iff.1 h
  obtain rfl := List.mem_singleton.1 hx
  cases r with
  | ok w => exact habsent.elim
  | error fault => exact ⟨fault, rfl, habsent.2⟩

/-- That there is no such object is no failure of a read, but a look-up that finds nothing. -/
theorem findsNothing_readFailure {fault : Fault τ} (hapi : fault.isApi = true)
    (hstatus : fault.statusOf.isNumber 404 = true) {r : Except (Fault τ) (Option WireSecret)}
    (h : (readFailure fault).Completes xs r) : FindsNothing r := by
  have hfailure : readFailure fault = (do
      count (.apiCalls "get_secret" "not_found")
      return none : Task τ (Option WireSecret)) := by
    unfold readFailure
    rw [if_pos hapi, if_pos hstatus]
  rw [hfailure] at h
  obtain ⟨counted, -, rfl⟩ := completes_bind_pure_iff.1 h
  cases counted <;> nofun

theorem learns_readThrough (rate : τ) (space name : Value) :
    Learns (readThrough rate space name) FindsNothing := by
  have hread : Learns (spaced rate (Operator.ask (.read space name)) >>= fun raw => pure (some raw))
      IsMissing := by
    refine learns_bind (learns_read rate space name) ?_ ?_ fun _ =>
      learns_of_callsNothing (isBookkeeping_pure _).callsNothing _
    · rintro _ ⟨_, hok, -⟩
      cases hok
    · rintro fault ⟨_, hfault, hmissing⟩
      cases hfault
      exact ⟨fault, rfl, hmissing⟩
  refine learns_bind_of_callsNothing (callsNothing_ask id) fun start => ?_
  refine learns_outcome (P := FindsNothing) (learns_outcome hread ?_ fun a => ?_) ?_ fun a => ?_
  · rintro _ ⟨fault, rfl, hapi, hstatus⟩ ys r h
    exact findsNothing_readFailure hapi hstatus h
  · cases a with
    | ok raw => exact learns_of_callsNothing (keeps_ok fun _ _ => trivial) _
    | error fault => exact learns_of_callsNothing (isBookkeeping_readFailure fault).callsNothing _
  · intro a ha ys r h
    rcases completes_bind_iff.1 h with ⟨fault, -, rfl⟩ | ⟨_, _, _, -, hdone, -⟩
    · nofun
    · obtain ⟨-, rfl⟩ := completes_done_iff.1 hdone
      exact ha
  · exact learns_of_callsNothing (isBookkeeping_bind (isBookkeeping_measureSince _ _) fun _ =>
      keeps_ofExcept fun _ _ _ _ => trivial).callsNothing _

/-- A look-up that is answered so finds nothing. -/
theorem learns_lookUp (rate : τ) (space name : Value) :
    Learns (lookUp rate space name) FindsNothing := by
  unfold lookUp
  refine learns_bind_of_callsNothing (isBookkeeping_checked _).callsNothing fun key => ?_
  refine learns_bind_of_callsNothing (callsNothing_ask id) fun cached => ?_
  cases cached with
  | some secret =>
    exact learns_of_callsNothing (isBookkeeping_bind (isBookkeeping_count _) fun _ =>
      isBookkeeping_pure _).callsNothing _
  | none =>
    refine learns_bind (learns_readThrough rate space name) (fun found hnothing ys r h => ?_)
      (fun _ _ => nofun) fun found => ?_
    · cases found with
      | none =>
        obtain ⟨-, rfl⟩ := completes_done_iff.1 h
        nofun
      | some raw => exact absurd rfl (hnothing raw)
    · cases found with
      | none => exact learns_of_callsNothing (isBookkeeping_pure _).callsNothing _
      | some raw =>
        have htakeIn : CallsNothing (takeIn (τ := τ) raw) :=
          asksOnly_takeIn (fun _ hq => hq.isInert.not_isCall) (fun _ => id) raw
        exact learns_of_callsNothing htakeIn _

/-! ## Activities -/

/-- What is left of a synchronisation that has found the canonical secret does not read it again. -/
theorem avoidsSource_continue (rate : τ) (s : Secret) : (do
      let target ← lookUp rate (.text Names.configNamespace) (.text Names.target)
      let decision ← checked (decide (some s) target (.text Names.target))
      perform rate {} decision
      return decision : Task τ Decision).AsksOnly Operator.Request.AvoidsSource := by
  have hroutine : ∀ q : Operator.Request τ, q.IsRoutine → q.AvoidsSource := fun _ hq =>
    hq.isInert.avoidsSource
  have hwrites : ∀ q : Operator.Request τ, q.CountsWrite → q.AvoidsSource := fun _ hq =>
    hq.isInert.avoidsSource
  refine behaves_bind (asksOnly_lookUp_of_read hroutine (fun _ => trivial) (fun _ => trivial)
    (fun _ => trivial) rate nofun) fun _ _ target => ?_
  refine behaves_bind (asksOnly_done _ _) fun _ _ decision => ?_
  exact behaves_bind (asksOnly_perform hroutine (fun _ => trivial) (fun _ => trivial) hwrites
    (fun _ => trivial) (fun _ _ => trivial) (fun _ _ _ => trivial) rate decision) fun _ _ _ =>
    asksOnly_done _ _

theorem neverWritesIfAbsent_sync (rate : τ) : NeverWritesIfAbsent (sync rate {}) := by
  intro xs r h
  rw [sync_eq] at h
  have hreads : ∀ {ys a}, (lookUp rate (.text Names.configNamespace) (.text Names.source)).Completes
      ys a → RespectsAbsence ys := fun hlookUp => respectsAbsence_of_write? fun y hy => by
    have hharmless := (asksOnly_lookUp (P := Request.IsHarmless) (fun _ hq => hq) rate _
      _).of_follows hlookUp y hy
    obtain ⟨q, a⟩ := y
    cases q <;> first | rfl | exact hharmless.elim
  rcases completes_bind_iff.1 h with ⟨fault, hlookUp, -⟩ | ⟨ys, found, zs, hlookUp, hrest, rfl⟩
  · exact hreads hlookUp
  cases found with
  | none =>
    exact (hreads hlookUp).append_of_right ((isBookkeeping_checked _).callsNothing.of_follows hrest)
  | some s =>
    refine respectsAbsence_of_not_saysAbsent fun x hx => ?_
    rcases List.mem_append.1 hx with hx | hx
    · exact fun habsent => learns_lookUp rate _ _ _ _ hlookUp ⟨x, hx, habsent⟩ s rfl
    · exact not_saysAbsent_of_avoidsSource (avoidsSource_continue rate s) hrest x hx

theorem neverWritesIfAbsent_reconcile (tuning : Tuning τ) (trigger : Value) :
    NeverWritesIfAbsent (reconcile tuning trigger) := by
  have bookkeeping : ∀ {γ : Type} {p : Task τ γ}, IsBookkeeping p → CallsNothing p := fun hp =>
    hp.callsNothing
  unfold reconcile reconcileConnected
  refine neverWritesIfAbsent_bind_of_left (bookkeeping isBookkeeping_connect) fun _ => ?_
  refine neverWritesIfAbsent_bind_of_left (bookkeeping (isBookkeeping_ask trivial)) fun start => ?_
  refine neverWritesIfAbsent_bind_of_right
    (neverWritesIfAbsent_outcome_of_right (neverWritesIfAbsent_outcome_of_right
    (neverWritesIfAbsent_sync tuning.rate) fun a => ?_) fun a => ?_) fun decision => ?_
  · cases a with
    | ok decision => exact keeps_ok fun _ _ => trivial
    | error fault =>
      exact bookkeeping (isBookkeeping_bind (isBookkeeping_recordFailure trigger fault) fun _ =>
        isBookkeeping_passOn _ _ fault)
  · exact bookkeeping (isBookkeeping_bind (isBookkeeping_measureSince _ _) fun _ =>
      keeps_ofExcept fun _ _ _ _ => trivial)
  · exact bookkeeping (isBookkeeping_bind (isBookkeeping_recordSuccess trigger decision) fun _ =>
      isBookkeeping_pure decision)

theorem callsNothing_scheduleRetry (tuning : Tuning τ) (delay : τ) :
    CallsNothing (scheduleRetry tuning delay) := by
  unfold scheduleRetry Resync.scheduleRetry
  rw [interpret_bind]
  refine behaves_bind ?_ fun _ _ time => ?_
  · rw [Resync.now, interpret_request]
    exact callsNothing_ask id
  · rw [interpret_bind]
    refine behaves_bind ?_ fun _ _ _ => ?_
    · rw [Resync.step, interpret_request]
      exact callsNothing_ask id
    · rw [Resync.step, interpret_request]
      exact callsNothing_ask id

theorem neverWritesIfAbsent_run (tuning : Tuning τ) (trigger : Value) :
    NeverWritesIfAbsent (Operator.run tuning trigger) := by
  unfold Operator.run Resync.run Program.recover
  rw [interpret_outcome, interpret_request]
  refine neverWritesIfAbsent_outcome_of_right ?_ fun a => ?_
  · exact neverWritesIfAbsent_bind_of_right (neverWritesIfAbsent_reconcile tuning trigger) fun _ =>
      (isBookkeeping_pure ()).callsNothing
  · cases a with
    | ok _ => exact keeps_ok fun _ _ => trivial
    | error fault => exact callsNothing_scheduleRetry tuning _

theorem neverWritesIfAbsent_tick (tuning : Tuning τ) : NeverWritesIfAbsent (tick tuning) := by
  unfold tick Resync.tick
  rw [interpret_bind]
  refine neverWritesIfAbsent_bind_of_left ?_ fun time => ?_
  · rw [Resync.now, interpret_request]
    exact callsNothing_ask id
  rw [interpret_bind]
  refine neverWritesIfAbsent_bind_of_left ?_ fun due => ?_
  · rw [Resync.step, interpret_request]
    exact callsNothing_ask id
  cases due with
  | wait time => exact neverWritesIfAbsent_of_callsNothing (isBookkeeping_pure time).callsNothing
  | run trigger =>
    dsimp only
    rw [interpret_bind]
    exact neverWritesIfAbsent_bind_of_right (neverWritesIfAbsent_run tuning _) fun _ =>
      (isBookkeeping_pure 0).callsNothing

/-- On no way that an activity can go is anything written if the API has said that there is no
canonical secret. -/
theorem neverWritesIfAbsent_activity {activity : Activity τ} (hwatched : activity.IsOfOperator) :
    NeverWritesIfAbsent activity.program := by
  have hobserve : ∀ {eventType body name space : Value},
      CallsNothing (observe (τ := τ) eventType body name space) := fun {_ _ _ _} =>
    asksOnly_observe _ _ _ _ id fun _ _ _ => id
  cases activity with
  | sync rate places =>
    obtain rfl : places = {} := hwatched
    exact neverWritesIfAbsent_bind_of_right (neverWritesIfAbsent_sync rate) fun _ =>
      (isBookkeeping_pure ()).callsNothing
  | reconcile tuning trigger =>
    exact neverWritesIfAbsent_bind_of_right (neverWritesIfAbsent_reconcile tuning trigger) fun _ =>
      (isBookkeeping_pure ()).callsNothing
  | observe eventType body name space => exact neverWritesIfAbsent_of_callsNothing hobserve
  | handle tuning eventType body name space =>
    exact neverWritesIfAbsent_bind_of_left hobserve fun _ => neverWritesIfAbsent_run tuning _
  | tick tuning =>
    exact neverWritesIfAbsent_bind_of_right (neverWritesIfAbsent_tick tuning) fun _ =>
      (isBookkeeping_pure ()).callsNothing

end SecretMirror
