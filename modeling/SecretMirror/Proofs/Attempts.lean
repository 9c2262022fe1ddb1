import SecretMirror.Proofs.FailureReports

/-!
# Attempts at calls of the API

An access, by which a secret is looked up, created or updated, makes at most one attempt at a call
of the API (`Access.task_eq`): it prepares the call, takes a turn and makes the call, and concludes
by the outcome.  An attempt has failed if the call has, or if there was no turn to be had.  So
whatever was asked and answered in an access tells what was attempted in it and what that came to
(`Access.Goes`, `Access.exists_goes`).

Every attempt is timed once and counted once by its result, and writes are counted in a second place
(`Attempt.updates`, `Access.Goes.updates_perm`).  But only an answer of the API gives a failed read
its result: a read that fails for want of a connection, by a timeout or by the limit of the rate is
timed and not counted (`Attempt.result?`), where a write that fails in the same way is an error.
-/

namespace SecretMirror.Operator

open Metrics
open Program hiding bind ask

variable {τ : Type}

/-! ## Attempts -/

/-- The calls of the API, as they are counted: the two that write are counted apart. -/
inductive ApiCall where
  | read
  | write (operation : Operation)
  deriving DecidableEq

namespace ApiCall

def name : ApiCall → String
  | read => "get_secret"
  | write operation => operation.callName

abbrev Answer : ApiCall → Type
  | read => WireSecret
  | write _ => Option WireSecret

@[simp] theorem name_inj {call call' : ApiCall} : call.name = call'.name ↔ call = call' := by
  refine ⟨fun h => ?_, congrArg name⟩
  rcases call with _ | ⟨_ | _⟩ <;> rcases call' with _ | ⟨_ | _⟩ <;>
    simp_all [name, Operation.callName]

/-- What a call with a result adds to the counters: one to the calls, and one to the writes if it is
a write. -/
def counts [Time τ] (call : ApiCall) (result : String) : List (Update τ) :=
  .add (.apiCalls call.name result) 1 :: match call with
    | read => []
    | write operation => [.add (.writes operation.name result) 1]

end ApiCall

/-- An attempt at a call, and what it came to.  An attempt that did not get its turn has failed too,
although nothing was sent. -/
structure Attempt (τ : Type) where
  call : ApiCall
  outcome : Except (Fault τ) call.Answer

/-- A use of the API, which goes through the cache or is a write. -/
inductive Access where
  | lookUp (space name : Value)
  | create (secret : Secret)
  | update (secret : Secret)

namespace Access

/-- The call that is made if one is needed. -/
def call : Access → ApiCall
  | lookUp .. => .read
  | create _ => .write .create
  | update _ => .write .update

variable [Time τ]

/-- The program of an access; its value does not matter here. -/
def task (rate : τ) : Access → Task τ Unit
  | lookUp space name => Operator.lookUp rate space name >>= fun _ => pure ()
  | create secret => Operator.create rate secret >>= fun _ => pure ()
  | update secret => Operator.update rate secret >>= fun _ => pure ()

/-- The call is needed, and the time is measured from now. -/
def beginCall {α : Type} (call : Task τ α) : Task τ (Option (τ × Task τ α)) := do
  let start ← now
  return some (start, call)

/-- What comes before an attempt: the time from which it is measured and the call itself, if a call
is needed.  None is needed if the cache hands the secret out, and there is none if this part
fails. -/
def prepare : (access : Access) → Task τ (Option (τ × Task τ access.call.Answer))
  | lookUp space name => do
    let key ← checked (Key.ofValues space name)
    match ← ask (.cacheGet key) with
    | some _ =>
      count (.apiCalls "get_secret" "cache_hit")
      return none
    | none => beginCall (ask (.read space name))
  | create secret => do
    let body ← checked secret.toWire
    beginCall (ask (.create secret.space (WireSecret.unversioned body)))
  | update secret => beginCall do
    let body ← checked secret.toWire
    ask (.replace secret.space secret.name body)

/-- What a read makes of the outcome of its attempt. -/
def concludeRead (start : τ) (outcome : Except (Fault τ) WireSecret) : Task τ Unit := do
  match ← ((Program.ofExcept (outcome.map some)).recover readFailure).always
      (measureSince start (.apiCallTime "get_secret")) with
  | none => return ()
  | some raw =>
    let _ ← takeIn raw
    return ()

/-- What a write makes of the outcome of its attempt. -/
def concludeWritten (operation : Operation) (secret : Secret) (start : τ)
    (outcome : Except (Fault τ) (Option WireSecret)) : Task τ Unit := do
  let raw ← ((Program.ofExcept outcome).recover (writeFailure operation secret)).always
    (measureSince start (.apiCallTime operation.callName))
  let _ ← concludeWrite operation secret raw
  return ()

/-- What comes after an attempt. -/
def conclude : (access : Access) → τ → Except (Fault τ) access.call.Answer → Task τ Unit
  | lookUp .. => concludeRead
  | create secret => concludeWritten .create secret
  | update secret => concludeWritten .update secret

theorem readThrough_bind (rate : τ) (space name : Value) :
    (readThrough rate space name >>= fun found => match found with
      | none => pure ()
      | some raw => takeIn raw >>= fun _ => pure ()) =
    now >>= fun start => (spaced rate (ask (.read space name))).outcome (concludeRead start) := by
  rw [readThrough, bind_assoc]
  congr 1
  funext start
  rw [recover_always_bind, bind_eq_outcome, outcome_assoc]
  congr 1
  funext outcome
  cases outcome with
  | error fault => rfl
  | ok raw => rfl

theorem write_bind (rate : τ) (operation : Operation) (secret : Secret)
    (call : Task τ (Option WireSecret)) :
    (write rate operation secret call >>= fun _ => pure ()) =
      now >>= fun start => (spaced rate call).outcome (concludeWritten operation secret start) := by
  rw [write, bind_assoc]
  congr 1
  funext start
  rw [bind_assoc]
  exact recover_always_bind _ _ _ _

/-- Makes an attempt at a call that is needed, and concludes by its outcome. -/
def attempt {α : Type} (rate : τ) (conclude : τ → Except (Fault τ) α → Task τ Unit) :
    Option (τ × Task τ α) → Task τ Unit
  | none => pure ()
  | some (start, call) => (spaced rate call).outcome (conclude start)

theorem beginCall_bind {α : Type} (rate : τ) (call : Task τ α)
    (conclude : τ → Except (Fault τ) α → Task τ Unit) :
    beginCall call >>= attempt rate conclude =
      now >>= fun start => (spaced rate call).outcome (conclude start) := by
  rw [beginCall, bind_assoc]
  rfl

/-- An access makes at most one attempt, after what comes before and before what comes after.  So
what is counted can be told from the outcome of this attempt alone. -/
theorem task_eq (rate : τ) (access : Access) :
    access.task rate = access.prepare >>= attempt rate access.conclude := by
  cases access with
  | lookUp space name =>
    show (Operator.lookUp rate space name >>= fun _ => pure ()) = _
    rw [Operator.lookUp, prepare, bind_assoc, bind_assoc]
    congr 1
    funext key
    rw [bind_assoc, bind_assoc]
    congr 1
    funext cached
    cases cached with
    | some secret =>
      dsimp only
      rw [bind_assoc, bind_assoc]
      rfl
    | none =>
      refine Eq.trans ?_ (beginCall_bind rate _ concludeRead).symm
      refine Eq.trans ?_ (readThrough_bind rate space name)
      dsimp only
      rw [bind_assoc]
      congr 1
      funext found
      cases found with
      | none => rfl
      | some raw => rfl
  | create secret =>
    show (Operator.create rate secret >>= fun _ => pure ()) = _
    rw [Operator.create, prepare, bind_assoc, bind_assoc]
    congr 1
    funext body
    exact (write_bind rate .create secret _).trans (beginCall_bind rate _ _).symm
  | update secret =>
    exact (write_bind rate .update secret _).trans (beginCall_bind rate _ _).symm

/-- What was asked and answered in an access, and the attempt that was made in it, if one was. -/
inductive Goes (rate : τ) (access : Access) :
    List (Exchange (requests τ) (Fault τ)) → Option (Attempt τ) → Prop where
  /-- Nothing was attempted: what comes before has failed, or no call was needed. -/
  | spared {xs : List (Exchange (requests τ) (Fault τ))}
    {prepared : Except (Fault τ) (Option (τ × Task τ access.call.Answer))}
    (hprepared : access.prepare.Completes xs prepared)
    (hspared : ∀ start call, prepared ≠ .ok (some (start, call))) : Goes rate access xs none
  /-- An attempt was made that came to an outcome. -/
  | attempted {xs ys zs : List (Exchange (requests τ) (Fault τ))} {start : τ}
    {call : Task τ access.call.Answer} {outcome : Except (Fault τ) access.call.Answer}
    {result : Except (Fault τ) Unit}
    (hprepared : access.prepare.Completes xs (.ok (some (start, call))))
    (hattempt : (spaced rate call).Completes ys outcome)
    (hconcluded : (access.conclude start outcome).Completes zs result) :
    Goes rate access (xs ++ (ys ++ zs)) (some ⟨access.call, outcome⟩)

/-- Every access goes in one of these ways, whatever it was answered. -/
theorem exists_goes {rate : τ} {access : Access} {xs : List (Exchange (requests τ) (Fault τ))}
    {result : Except (Fault τ) Unit} (h : (access.task rate).Completes xs result) :
    ∃ attempt?, access.Goes rate xs attempt? := by
  rw [task_eq, completes_bind_iff] at h
  rcases h with ⟨fault, hprepared, -⟩ | ⟨xs, prepared, ys, hprepared, hrest, rfl⟩
  · exact ⟨none, .spared hprepared nofun⟩
  · cases prepared with
    | none =>
      obtain ⟨rfl, -⟩ := completes_done_iff.1 hrest
      rw [List.append_nil]
      exact ⟨none, .spared hprepared nofun⟩
    | some turn =>
      obtain ⟨ys, outcome, zs, hattempt, hconcluded, rfl⟩ := completes_outcome_iff.1 hrest
      exact ⟨_, .attempted hprepared hattempt hconcluded⟩

end Access

/-! ## What is counted of an attempt -/

def saysAbsent (fault : Fault τ) : Bool := fault.isApi && fault.statusOf.isNumber 404

namespace Attempt

/-- The result under which an attempt is counted.  A read that has failed otherwise than by an
answer of the API is not counted at all. -/
def result? : Attempt τ → Option String
  | ⟨_, .ok _⟩ => some "success"
  | ⟨.write _, .error _⟩ => some "error"
  | ⟨.read, .error fault⟩ =>
    if fault.isApi then some (if fault.statusOf.isNumber 404 then "not_found" else "error")
    else none

def isAt (call : ApiCall) (attempt : Attempt τ) : Bool := attempt.call = call

/-- The attempt is at this call and is not counted under any result. -/
def isSilentAt (call : ApiCall) (attempt : Attempt τ) : Bool :=
  attempt.isAt call && attempt.result?.isNone

/-- The attempt is at this call and has failed.  That there is no secret to read does not count as a
failure, since the API has answered. -/
def hasFailedAt (call : ApiCall) (attempt : Attempt τ) : Bool :=
  attempt.isAt call && match attempt with
    | ⟨_, .ok _⟩ => false
    | ⟨.read, .error fault⟩ => !saysAbsent fault
    | ⟨.write _, .error _⟩ => true

/-- What an attempt changes in the metrics: it is timed, and counted if it has a result. -/
def updates [Time τ] (attempt : Attempt τ) (time : τ) : List (Update τ) :=
  .add (.apiCallTime attempt.call.name) time :: attempt.result?.toList.flatMap attempt.call.counts

end Attempt

/-! ## What an access leaves in the metrics -/

namespace Access

def isMeasured : Note τ → Bool
  | .measured _ => true
  | _ => false

/-- The changes of the metrics that an exchange leaves. -/
abbrev measured : Exchange (requests τ) (Fault τ) → Option (Note τ) := noted isMeasured

/-- What asks for no change of the metrics leaves none. -/
theorem enters_bind_of_leavesNo {α β : Type} {p : Task τ α} {f : α → Task τ β}
    {Q : List (Note τ) → Except (Fault τ) β → Prop}
    (hp : p.AsksOnly (Request.LeavesNo isMeasured)) (hok : ∀ a, (f a).Enters IsReliable measured Q)
    (herror : ∀ fault, Q [] (.error fault)) : (p >>= f).Enters IsReliable measured Q :=
  hp.enters_bind (fun _ => noted_eq_none) hok herror

theorem leavesNo_ask {q : Request τ} (hq : q.LeavesNo isMeasured) :
    (ask q).AsksOnly (Request.LeavesNo isMeasured) :=
  behaves_request fun _ _ => hq

variable [Time τ]

theorem enters_count (s : Series) : (count s).Enters IsReliable (measured (τ := τ)) fun es r =>
    es = [.measured (.add s 1)] ∧ r = .ok () :=
  enters_measure (fun _ h => h) _

theorem enters_timed {α : Type} {p : Task τ α} {P : List (Note τ) → Except (Fault τ) α → Prop}
    (hp : p.Enters IsReliable measured P) (start : τ) (s : Series) :
    (p.always (measureSince start s)).Enters IsReliable measured fun es r =>
      ∃ fs time, es = fs ++ [.measured (.add s time)] ∧ P fs r := by
  refine enters_always hp fun es r hes => ?_
  refine (enters_measureSince (fun _ h => h) start s).imp ?_
  rintro _ _ ⟨⟨time, rfl⟩, rfl⟩
  exact ⟨rfl, es, time, rfl, hes⟩

/-- What comes before an attempt leaves nothing, unless a cached secret is found: then there is no
attempt. -/
theorem enters_prepare (access : Access) : access.prepare.Enters IsReliable measured fun es r =>
    (es = [] ∧ ∀ start call, r = .ok (some (start, call)) →
      call.AsksOnly (Request.LeavesNo (τ := τ) isMeasured)) ∨
    es = [.measured (.add (.apiCalls "get_secret" "cache_hit") 1)] ∧ r = .ok none := by
  have hbegins : ∀ {α : Type} (call : Task τ α), call.AsksOnly (Request.LeavesNo isMeasured) →
      (beginCall call).Enters IsReliable measured fun es r => (es = [] ∧ ∀ start call',
        r = .ok (some (start, call')) → call'.AsksOnly (Request.LeavesNo isMeasured)) ∨
      es = [.measured (.add (.apiCalls "get_secret" "cache_hit") 1)] ∧ r = .ok none := by
    intro α call hcall
    refine enters_bind_of_leavesNo (leavesNo_ask trivial) (fun start => ?_) fun fault =>
      .inl ⟨rfl, nofun⟩
    refine enters_done (.inl ⟨rfl, fun _ _ h => ?_⟩)
    cases h
    exact hcall
  cases access with
  | lookUp space name =>
    refine enters_bind_of_leavesNo (asksOnly_done _ _) (fun key => ?_) fun fault =>
      .inl ⟨rfl, nofun⟩
    refine enters_bind_of_leavesNo (leavesNo_ask trivial) (fun cached => ?_) fun fault =>
      .inl ⟨rfl, nofun⟩
    cases cached with
    | none => exact hbegins _ (leavesNo_ask trivial)
    | some secret =>
      refine enters_bind (enters_count _) ?_ ?_
      · rintro _ _ ⟨rfl, -⟩
        exact enters_done (.inr ⟨rfl, rfl⟩)
      · rintro _ _ ⟨-, ⟨⟩⟩
  | create secret =>
    refine enters_bind_of_leavesNo (asksOnly_done _ _) (fun body => ?_) fun fault =>
      .inl ⟨rfl, nofun⟩
    exact hbegins _ (leavesNo_ask trivial)
  | update secret =>
    exact hbegins _ (behaves_bind (asksOnly_done _ _) fun _ _ body => leavesNo_ask trivial)

/-- To wait for a turn leaves nothing. -/
theorem leavesNo_spaced {α : Type} (rate : τ) {call : Task τ α}
    (hcall : call.AsksOnly (Request.LeavesNo isMeasured)) :
    (spaced rate call).AsksOnly (Request.LeavesNo isMeasured) := by
  rw [spaced]
  refine behaves_bind ((takesTurn_takeTurn rate).imp fun q hq => ?_) fun _ _ _ => hcall
  cases q <;> first | exact trivial | exact hq.elim

/-- A failed read is counted by what the API says, and not at all if it says nothing. -/
theorem enters_readFailure (fault : Fault τ) :
    (readFailure fault).Enters IsReliable measured fun es r =>
      es = (Attempt.result? ⟨.read, .error fault⟩).toList.map (fun result =>
        .measured (.add (.apiCalls "get_secret" result) 1)) ∧ ∀ raw, r ≠ .ok (some raw) := by
  rw [readFailure, Attempt.result?]
  by_cases hapi : fault.isApi = true
  · rw [if_pos hapi, if_pos hapi]
    by_cases habsent : fault.statusOf.isNumber 404 = true
    · rw [if_pos habsent, if_pos habsent]
      refine enters_bind (enters_count _) ?_ ?_
      · rintro _ _ ⟨rfl, -⟩
        exact enters_done ⟨rfl, nofun⟩
      · rintro _ _ ⟨-, ⟨⟩⟩
    · rw [if_neg habsent, if_neg habsent]
      refine enters_bind (enters_count _) ?_ ?_
      · rintro _ _ ⟨rfl, -⟩
        exact enters_done ⟨rfl, nofun⟩
      · rintro _ _ ⟨-, ⟨⟩⟩
  · rw [if_neg hapi, if_neg hapi]
    exact enters_done ⟨rfl, nofun⟩

/-- What was read is counted and taken in. -/
theorem enters_takeIn (raw : WireSecret) : (takeIn raw).Enters IsReliable (measured (τ := τ))
    fun es _ => es = [.measured (.add (.apiCalls "get_secret" "success") 1)] := by
  refine enters_bind (enters_count _) ?_ ?_
  · rintro _ _ ⟨rfl, -⟩
    refine enters_bind_of_leavesNo (asksOnly_done _ _) (fun secret => ?_) fun fault => rfl
    refine enters_bind_of_leavesNo (leavesNo_ask trivial) (fun _ => ?_) fun fault => rfl
    exact enters_done rfl
  · rintro _ _ ⟨-, ⟨⟩⟩

/-- A failed write is counted as a call and as a write, whether or not anything can be dropped from
the cache then. -/
theorem enters_writeFailure (operation : Operation) (secret : Secret) (fault : Fault τ) :
    (writeFailure operation secret fault).Enters IsReliable measured fun es r =>
      es = ((ApiCall.write operation).counts "error").map .measured ∧ ∀ raw, r ≠ .ok raw := by
  refine enters_bind (enters_count _) ?_ ?_
  · rintro _ _ ⟨rfl, -⟩
    refine enters_bind (enters_count _) ?_ ?_
    · rintro _ _ ⟨rfl, -⟩
      refine enters_bind_of_leavesNo (leavesNo_ask trivial) (fun _ => ?_) fun fault => ⟨rfl, nofun⟩
      exact enters_done ⟨rfl, nofun⟩
    · rintro _ _ ⟨-, ⟨⟩⟩
  · rintro _ _ ⟨-, ⟨⟩⟩

/-- A write that was answered is counted as a call and as a write, whatever the answer. -/
theorem enters_concludeWrite (operation : Operation) (secret : Secret) (raw : Option WireSecret) :
    (concludeWrite operation secret raw).Enters IsReliable (measured (τ := τ))
      fun es _ => es = ((ApiCall.write operation).counts "success").map .measured := by
  have hcaches : ∀ stored : Secret, (do
      ask (.cachePut stored)
      return stored : Task τ Secret).Enters IsReliable measured fun es _ => es = [] := fun stored =>
    enters_bind_of_leavesNo (leavesNo_ask trivial) (fun _ => enters_done rfl) fun _ => rfl
  refine enters_bind (enters_count _) ?_ ?_
  · rintro _ _ ⟨rfl, -⟩
    refine enters_bind (enters_count _) ?_ ?_
    · rintro _ _ ⟨rfl, -⟩
      cases raw with
      | none =>
        refine (hcaches secret).imp ?_
        rintro _ _ rfl
        rfl
      | some raw =>
        refine enters_bind_of_leavesNo (asksOnly_done _ _) (fun stored => ?_) fun _ => rfl
        refine (hcaches stored).imp ?_
        rintro _ _ rfl
        rfl
    · rintro _ _ ⟨-, ⟨⟩⟩
  · rintro _ _ ⟨-, ⟨⟩⟩

/-- A read times its attempt and counts it by its result. -/
theorem enters_concludeRead (start : τ) (outcome : Except (Fault τ) WireSecret) :
    (concludeRead start outcome).Enters IsReliable measured fun es _ =>
      ∃ time, es.Perm ((Attempt.updates ⟨.read, outcome⟩ time).map .measured) := by
  cases outcome with
  | ok raw =>
    refine enters_bind (enters_timed (P := fun es r => es = [] ∧ r = .ok (some raw))
      (enters_done ⟨rfl, rfl⟩) start _) ?_ ?_
    · rintro _ _ ⟨_, time, rfl, rfl, ⟨⟩⟩
      refine enters_bind (enters_takeIn raw) ?_ ?_
      · rintro _ _ rfl
        exact enters_done ⟨time, .refl _⟩
      · rintro _ _ rfl
        exact ⟨time, .refl _⟩
    · rintro _ _ ⟨_, _, -, -, ⟨⟩⟩
  | error fault =>
    have hperm : ∀ time : τ, ((Attempt.result? ⟨.read, .error fault⟩).toList.map (fun result =>
        Note.measured (.add (.apiCalls "get_secret" result) 1)) ++
          [Note.measured (.add (.apiCallTime "get_secret") time)]).Perm
        ((Attempt.updates ⟨.read, .error fault⟩ time).map .measured) := by
      intro time
      refine (List.perm_append_singleton _ _).trans (.of_eq ?_)
      rw [Attempt.updates]
      cases Attempt.result? ⟨.read, .error fault⟩ with
      | none => rfl
      | some result => rfl
    refine enters_bind (enters_timed (enters_readFailure fault) start _) ?_ ?_
    · rintro _ found ⟨_, time, rfl, rfl, hfound⟩
      cases found with
      | some raw => exact absurd rfl (hfound raw)
      | none =>
        refine enters_done ⟨time, ?_⟩
        rw [List.append_nil]
        exact hperm time
    · rintro _ _ ⟨_, time, rfl, rfl, -⟩
      exact ⟨time, hperm time⟩

theorem enters_concludeWritten (operation : Operation) (secret : Secret) (start : τ)
    (outcome : Except (Fault τ) (Option WireSecret)) :
    (concludeWritten operation secret start outcome).Enters IsReliable measured fun es _ =>
      ∃ time, es.Perm ((Attempt.updates ⟨.write operation, outcome⟩ time).map .measured) := by
  cases outcome with
  | ok raw =>
    refine enters_bind (enters_timed (P := fun es r => es = [] ∧ r = .ok raw)
      (enters_done ⟨rfl, rfl⟩) start _) ?_ ?_
    · rintro _ _ ⟨_, time, rfl, rfl, ⟨⟩⟩
      refine enters_bind (enters_concludeWrite operation secret raw) ?_ ?_
      · rintro _ _ rfl
        exact enters_done ⟨time, .refl _⟩
      · rintro _ _ rfl
        exact ⟨time, .refl _⟩
    · rintro _ _ ⟨_, _, -, -, ⟨⟩⟩
  | error fault =>
    refine enters_bind (enters_timed (enters_writeFailure operation secret fault) start _) ?_ ?_
    · rintro _ raw ⟨_, time, rfl, rfl, hraw⟩
      exact absurd rfl (hraw raw)
    · rintro _ _ ⟨_, time, rfl, rfl, -⟩
      exact ⟨time, List.perm_append_singleton _ _⟩

theorem enters_conclude (access : Access) (start : τ)
    (outcome : Except (Fault τ) access.call.Answer) :
    (access.conclude start outcome).Enters IsReliable measured fun es _ =>
      ∃ time, es.Perm ((Attempt.updates ⟨access.call, outcome⟩ time).map .measured) := by
  cases access with
  | lookUp space name => exact enters_concludeRead start outcome
  | create secret => exact enters_concludeWritten .create secret start outcome
  | update secret => exact enters_concludeWritten .update secret start outcome

omit [Time τ] in
theorem updates_eq (xs : List (Exchange (requests τ) (Fault τ))) :
    Operator.updates xs = (xs.filterMap measured).filterMap Note.update? := by
  refine filterMap_note? (fun note hnote => ?_) xs
  cases note with
  | measured update => cases hnote
  | _ => rfl

/-- What an access leaves in the metrics: what its attempt changes, or a hit of the cache, or
nothing.  The order is that of the program, so this is said up to order. -/
theorem Goes.updates_perm {rate : τ} {access : Access} {attempt? : Option (Attempt τ)}
    {xs : List (Exchange (requests τ) (Fault τ))} (h : access.Goes rate xs attempt?)
    (hreliable : ∀ x ∈ xs, IsReliable x) : match attempt? with
      | some attempt => ∃ time, (Operator.updates xs).Perm (attempt.updates time)
      | none => Operator.updates xs = [] ∨
          Operator.updates xs = [.add (.apiCalls "get_secret" "cache_hit") 1] := by
  cases h with
  | @spared xs prepared hprepared hspared =>
    rcases enters_prepare access xs _ hprepared hreliable with ⟨hes, -⟩ | ⟨hes, -⟩
    · refine .inl ?_
      rw [updates_eq, hes]
      rfl
    · refine .inr ?_
      rw [updates_eq, hes]
      rfl
  | @attempted xs ys zs start call outcome result hprepared hattempt hconcluded =>
    rw [List.forall_mem_append, List.forall_mem_append] at hreliable
    obtain ⟨hxs, hys, hzs⟩ := hreliable
    obtain ⟨hes, hcall⟩ : xs.filterMap measured = [] ∧
        call.AsksOnly (Request.LeavesNo isMeasured) := by
      rcases enters_prepare access xs _ hprepared hxs with ⟨hes, hcall⟩ | ⟨-, ⟨⟩⟩
      exact ⟨hes, hcall start call rfl⟩
    have hfs : ys.filterMap measured = [] :=
      (leavesNo_spaced rate hcall).enters (fun _ => noted_eq_none) ys _ hattempt hys
    obtain ⟨time, hperm⟩ := enters_conclude access start outcome zs _ hconcluded hzs
    refine ⟨time, ?_⟩
    have hnotes : (xs ++ (ys ++ zs)).filterMap measured = zs.filterMap measured := by
      rw [List.filterMap_append, List.filterMap_append, hes, hfs, List.nil_append, List.nil_append]
    rw [updates_eq, hnotes]
    refine (hperm.filterMap Note.update?).trans (.of_eq ?_)
    rw [List.filterMap_map]
    exact List.filterMap_some

end Access

end SecretMirror.Operator
