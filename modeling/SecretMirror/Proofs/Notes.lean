import SecretMirror.Cluster
import SecretMirror.Proofs.Bookkeeping
import SecretMirror.Proofs.Entries

/-!
# What a reconciliation leaves behind

Of a program that has gone through to its end, three things stay behind whatever the API was asked:
how the metrics were changed, what was logged, and which events were emitted (`Note`).

If the surroundings do what is never refused (`IsReliable`), a reconciliation through a client that
is configured already accounts for itself once and for all (`Accounts`): a failure is counted,
counted under its class, logged and timed; a success is timed, counted by its result, and logged.
This comes after what the synchronisation has left behind, wherever in it a fault has occurred
(`enters_reconcileConnected`).

In a cluster, what a program leaves behind is what the metrics, the log and the events grow by
(`Cluster.adds_run`).
-/

namespace SecretMirror

open Operator
open Program hiding bind ask

namespace Operator

variable {τ α : Type}

/-! ## Notes -/

/-- What stays behind when a request was granted, be it refused later on or not. -/
inductive Note (τ : Type) where
  | measured (update : Metrics.Update τ)
  | logged (line : Log.Line)
  | emitted (event : Event)

def note? : Exchange (requests τ) (Fault τ) → Option (Note τ)
  | ⟨.measure update, .ok _⟩ => some (.measured update)
  | ⟨.log line, .ok _⟩ => some (.logged line)
  | ⟨.post event, .ok _⟩ => some (.emitted event)
  | _ => none

/-- What an exchange leaves behind, if it is of some kind. -/
def noted (wanted : Note τ → Bool) (x : Exchange (requests τ) (Fault τ)) : Option (Note τ) :=
  (note? x).filter wanted

def Note.update? : Note τ → Option (Metrics.Update τ)
  | .measured update => some update
  | _ => none

def Note.line? : Note τ → Option Log.Line
  | .logged line => some line
  | _ => none

def Note.event? : Note τ → Option Event
  | .emitted event => some event
  | _ => none

/-- The changes of the metrics among some exchanges, in order. -/
def updates (xs : List (Exchange (requests τ) (Fault τ))) : List (Metrics.Update τ) :=
  (xs.filterMap note?).filterMap Note.update?

/-- The lines that were logged among some exchanges, in order. -/
def lines (xs : List (Exchange (requests τ) (Fault τ))) : List Log.Line :=
  (xs.filterMap note?).filterMap Note.line?

/-- The events that were emitted among some exchanges, in order. -/
def events (xs : List (Exchange (requests τ) (Fault τ))) : List Event :=
  (xs.filterMap note?).filterMap Note.event?

theorem filterMap_note? {β : Type} {wanted : Note τ → Bool} {f : Note τ → Option β}
    (h : ∀ note, wanted note = false → f note = none)
    (xs : List (Exchange (requests τ) (Fault τ))) :
    (xs.filterMap note?).filterMap f = (xs.filterMap (noted wanted)).filterMap f := by
  rw [List.filterMap_filterMap, List.filterMap_filterMap]
  congr 1
  funext x
  unfold noted
  cases note? x with
  | none => rfl
  | some note =>
    rw [Option.filter_some]
    cases hwanted : wanted note with
    | true => rfl
    | false => exact h note hwanted

/-- The changes of the metrics of some kind are told by the notes of this kind. -/
theorem filter_updates (wanted : Note τ → Bool) (xs : List (Exchange (requests τ) (Fault τ))) :
    (updates xs).filter (fun update => wanted (.measured update)) =
      (xs.filterMap (noted wanted)).filterMap Note.update? := by
  rw [updates, List.filter_filterMap, List.filterMap_filterMap, List.filterMap_filterMap]
  congr 1
  funext x
  unfold noted
  cases note? x with
  | none => rfl
  | some note =>
    rw [Option.filter_some]
    cases note with
    | measured update =>
      rw [Option.bind_some, Note.update?, Option.filter_some]
      cases wanted (.measured update) <;> rfl
    | logged line => cases wanted (.logged line) <;> rfl
    | emitted event => cases wanted (.emitted event) <;> rfl

theorem toList_filter {wanted : Note τ → Bool} (note : Note τ) :
    ((some note).filter wanted).toList = [note].filter wanted := by
  rw [Option.filter_some, List.filter_cons]
  cases wanted note <;> rfl

/-- The request leaves nothing behind of some kind, whatever the answer. -/
def Request.LeavesNo (wanted : Note τ → Bool) : Request τ → Prop
  | .measure update => wanted (.measured update) = false
  | .log line => wanted (.logged line) = false
  | .post event => wanted (.emitted event) = false
  | _ => True

theorem noted_eq_none {wanted : Note τ → Bool} {x : Exchange (requests τ) (Fault τ)}
    (h : x.request.LeavesNo wanted) : noted wanted x = none := by
  unfold noted note?
  split
  · exact if_neg (by rw [h]; exact Bool.false_ne_true)
  · exact if_neg (by rw [h]; exact Bool.false_ne_true)
  · exact if_neg (by rw [h]; exact Bool.false_ne_true)
  · rfl

theorem Request.IsRoutine.leavesNo {wanted : Note τ → Bool} {q : Request τ} (hq : q.IsRoutine)
    (h : ∀ update : Metrics.Update τ,
      update.series.metric = .apiCalls ∨ update.series.metric = .apiCallTime →
        wanted (.measured update) = false) : q.LeavesNo wanted := by
  cases q with
  | measure update => exact h update hq
  | log line => exact hq.elim
  | post event => exact hq.elim
  | _ => trivial

/-- The surroundings do what is never refused: they tell the time, count, log, drop what is cached
under a key, and take steps on the schedule.  Anything else may fail with any fault. -/
def IsReliable : Exchange (requests τ) (Fault τ) → Prop
  | ⟨.now, .error _⟩ => False
  | ⟨.measure _, .error _⟩ => False
  | ⟨.log _, .error _⟩ => False
  | ⟨.cacheForget space name, .error _⟩ => ∀ key, Key.ofValues space name ≠ .ok key
  | ⟨.schedule _, .error _⟩ => False
  | _ => True

/-! ## Faults that are passed on -/

/-- A fault is passed on as it is, or as a temporary one that it has caused. -/
def IsPassedOn (fault passed : Fault τ) : Prop :=
  passed = fault ∨ ∃ message delay, passed = .temporary message (some delay) (some fault)

/-! ## Notes of the parts -/

theorem enters_checked_bind {β E : Type} {trusted : Exchange (requests τ) (Fault τ) → Prop}
    {view : Exchange (requests τ) (Fault τ) → Option E} {a : Except Malformed α}
    {f : α → Task τ β} {Q : List E → Except (Fault τ) β → Prop}
    (hok : ∀ b, a = .ok b → (f b).Enters trusted view Q) (herror : ∀ fault, Q [] (.error fault)) :
    (checked a >>= f).Enters trusted view Q := by
  cases a with
  | ok b => exact hok b rfl
  | error reason => exact enters_done (herror _)

section Parts

variable {trusted : Exchange (requests τ) (Fault τ) → Prop}
  (htrusted : ∀ x, trusted x → IsReliable x) {wanted : Note τ → Bool}

include htrusted

theorem enters_now : (now (τ := τ)).Enters trusted (noted wanted) fun es r =>
    es = [] ∧ ∃ time, r = .ok time := by
  refine enters_request fun a ha => ⟨rfl, ?_⟩
  cases a with
  | ok time => exact ⟨time, rfl⟩
  | error fault => exact (htrusted _ ha).elim

theorem enters_measure (update : Metrics.Update τ) :
    (ask (.measure update)).Enters trusted (noted wanted) fun es r =>
      es = [Note.measured update].filter wanted ∧ r = .ok () := by
  refine enters_request fun a ha => ?_
  cases a with
  | ok done => exact ⟨toList_filter _, rfl⟩
  | error fault => exact (htrusted _ ha).elim

theorem enters_log (line : Log.Line) :
    (ask (.log line)).Enters trusted (noted wanted) fun es r =>
      es = [Note.logged line].filter wanted ∧ r = .ok () := by
  refine enters_request fun a ha => ?_
  cases a with
  | ok done => exact ⟨toList_filter _, rfl⟩
  | error fault => exact (htrusted _ ha).elim

theorem enters_passOn (delay : τ) (fault : Fault τ) :
    (passOn delay {} fault).Enters trusted (noted wanted) fun es r =>
      es = [] ∧ ∃ passed, r = .error passed ∧ IsPassedOn fault passed := by
  have hforget : ∀ name : String,
      (ask (.cacheForget (.text Names.configNamespace) (.text name))).Enters trusted
        (noted (τ := τ) wanted) fun es r => es = [] ∧ r = .ok () := by
    refine fun name => enters_request fun a ha => ⟨rfl, ?_⟩
    cases a with
    | ok done => rfl
    | error e => exact absurd (Key.ofValues_text Names.configNamespace name) (htrusted _ ha _)
  unfold passOn
  split
  · refine enters_bind (P := fun es r => es = [] ∧ r = .ok ()) ?_ ?_ ?_
    · refine enters_bind (hforget Names.source) ?_ ?_
      · rintro _ _ ⟨rfl, -⟩
        exact hforget Names.target
      · rintro _ _ ⟨-, ⟨⟩⟩
    · rintro _ _ ⟨rfl, -⟩
      exact enters_done ⟨rfl, _, rfl, .inr ⟨_, _, rfl⟩⟩
    · rintro _ _ ⟨-, ⟨⟩⟩
  · split
    · exact enters_done ⟨rfl, _, rfl, .inr ⟨_, _, rfl⟩⟩
    · exact enters_done ⟨rfl, _, rfl, .inl rfl⟩

variable [Time τ]

theorem enters_measureSince (start : τ) (s : Series) :
    (measureSince start s).Enters trusted (noted wanted) fun es r =>
      (∃ time, es = [Note.measured (.add s time)].filter wanted) ∧ r = .ok () := by
  refine enters_bind (enters_now htrusted) ?_ ?_
  · rintro _ stop ⟨rfl, -⟩
    refine (enters_measure htrusted _).imp ?_
    rintro _ _ ⟨rfl, rfl⟩
    exact ⟨⟨_, rfl⟩, rfl⟩
  · rintro _ _ ⟨-, _, ⟨⟩⟩

/-- A failure is counted, counted under its class, and logged. -/
theorem enters_recordFailure (trigger : String) (fault : Fault τ) :
    (recordFailure (.text trigger) fault).Enters trusted (noted wanted) fun es r =>
      (∃ line, failureLine trigger fault = .ok line ∧
        es = [Note.measured (.add (.reconciliations trigger "error") 1),
          .measured (.add (.errors fault.typeName) 1), .logged line].filter wanted) ∧
      r = .ok () := by
  obtain ⟨line, hline, -⟩ := exists_failureLine trigger fault
  have hrecord : recordFailure (.text trigger) fault = (do
      count (.reconciliations trigger "error")
      count (.errors fault.typeName)
      ask (.log line)) := by
    show (do
      count (.reconciliations trigger "error")
      count (.errors fault.typeName)
      let line ← checked (failureLine trigger fault)
      ask (.log line)) = _
    rw [hline]
    rfl
  rw [hrecord]
  refine enters_bind (enters_measure htrusted _) ?_ ?_
  · rintro _ _ ⟨rfl, -⟩
    refine enters_bind (enters_measure htrusted _) ?_ ?_
    · rintro _ _ ⟨rfl, -⟩
      refine (enters_log htrusted line).imp ?_
      rintro _ _ ⟨rfl, rfl⟩
      refine ⟨⟨line, hline, ?_⟩, rfl⟩
      rw [← List.filter_append, ← List.filter_append]
      rfl
    · rintro _ _ ⟨-, ⟨⟩⟩
  · rintro _ _ ⟨-, ⟨⟩⟩

/-- A success is counted by its result and logged. -/
theorem enters_recordSuccess (trigger : String) (decision : Decision) :
    (recordSuccess (τ := τ) (.text trigger) decision).Enters trusted (noted wanted)
      fun es r => (∃ line, successLine trigger decision = .ok line ∧
        es = [Note.measured (.add (.reconciliations trigger (resultName decision.action)) 1),
          .logged line].filter wanted) ∧ r = .ok () := by
  obtain ⟨line, hline, -⟩ := exists_successLine trigger decision
  have hrecord : recordSuccess (τ := τ) (.text trigger) decision = (do
      count (.reconciliations trigger (resultName decision.action))
      ask (.log line)) := by
    show (do
      count (.reconciliations trigger (resultName decision.action))
      let line ← checked (successLine trigger decision)
      ask (.log line)) = _
    rw [hline]
    rfl
  rw [hrecord]
  refine enters_bind (enters_measure htrusted _) ?_ ?_
  · rintro _ _ ⟨rfl, -⟩
    refine (enters_log htrusted line).imp ?_
    rintro _ _ ⟨rfl, rfl⟩
    refine ⟨⟨line, hline, ?_⟩, rfl⟩
    rw [← List.filter_append]
    rfl
  · rintro _ _ ⟨-, ⟨⟩⟩

end Parts

/-! ## A reconciliation -/

variable [Time τ]

/-- What a reconciliation leaves behind that has failed, apart from what its synchronisation has.
The failure is counted before it is logged, and timed last. -/
def failureNotes (trigger : String) (fault : Fault τ) (line : Log.Line) (time : τ) :
    List (Note τ) :=
  [.measured (.add (.reconciliations trigger "error") 1),
    .measured (.add (.errors fault.typeName) 1), .logged line,
    .measured (.add (.reconciliationTime trigger) time)]

/-- What a reconciliation leaves behind that has finished, apart from what its synchronisation
has. -/
def successNotes (trigger : String) (decision : Decision) (line : Log.Line) (time : τ) :
    List (Note τ) :=
  [.measured (.add (.reconciliationTime trigger) time),
    .measured (.add (.reconciliations trigger (resultName decision.action)) 1), .logged line]

/-- What a reconciliation through a configured client leaves behind of some kind, by how it ends.
`synced` tells what the synchronisation has left behind. -/
inductive Accounts (trigger : String) (wanted : Note τ → Bool)
    (synced : List (Note τ) → Except (Fault τ) Decision → Prop) :
    List (Note τ) → Except (Fault τ) Decision → Prop where
  | failed {notes : List (Note τ)} {fault passed : Fault τ} {line : Log.Line} (time : τ)
    (hsync : synced notes (.error fault)) (hpassed : IsPassedOn fault passed)
    (hline : failureLine trigger fault = .ok line) :
    Accounts trigger wanted synced (notes ++ (failureNotes trigger fault line time).filter wanted)
      (.error passed)
  | finished {notes : List (Note τ)} {decision : Decision} {line : Log.Line} (time : τ)
    (hsync : synced notes (.ok decision)) (hline : successLine trigger decision = .ok line) :
    Accounts trigger wanted synced
      (notes ++ (successNotes trigger decision line time).filter wanted) (.ok decision)

/-- A reconciliation through a configured client accounts for itself once and for all. -/
theorem enters_reconcileConnected {trusted : Exchange (requests τ) (Fault τ) → Prop}
    (htrusted : ∀ x, trusted x → IsReliable x) {wanted : Note τ → Bool}
    {synced : List (Note τ) → Except (Fault τ) Decision → Prop} {tuning : Tuning τ}
    (hsync : (sync tuning.rate {}).Enters trusted (noted wanted) synced) (trigger : String) :
    (reconcileConnected tuning (.text trigger)).Enters trusted (noted wanted)
      (Accounts trigger wanted synced) := by
  -- The synchronisation, and what is made of its fault.
  have hrecovered : ((sync tuning.rate {}).recover fun fault => do
      recordFailure (.text trigger) fault
      passOn tuning.conflictDelay {} fault).Enters trusted (noted wanted) fun es r =>
        (∃ decision, r = .ok decision ∧ synced es (.ok decision)) ∨
        ∃ notes fault passed line, r = .error passed ∧ IsPassedOn fault passed ∧
          failureLine trigger fault = .ok line ∧ synced notes (.error fault) ∧
          es = notes ++ [Note.measured (.add (.reconciliations trigger "error") 1),
            .measured (.add (.errors fault.typeName) 1), .logged line].filter wanted := by
    refine enters_recover hsync ?_ ?_
    · exact fun es decision hes => .inl ⟨decision, rfl, hes⟩
    · intro es fault hes
      refine enters_bind (enters_recordFailure htrusted trigger fault) ?_ ?_
      · rintro _ _ ⟨⟨line, hline, rfl⟩, -⟩
        refine (enters_passOn htrusted tuning.conflictDelay fault).imp ?_
        rintro _ _ ⟨rfl, passed, rfl, hpassed⟩
        refine .inr ⟨es, fault, passed, line, rfl, hpassed, hline, hes, ?_⟩
        rw [List.append_nil]
      · rintro _ _ ⟨-, ⟨⟩⟩
  refine enters_bind (enters_now htrusted) ?_ ?_
  · rintro _ start ⟨rfl, -⟩
    refine enters_bind (enters_always (Q := fun es r =>
      (∃ decision notes time, r = .ok decision ∧ synced notes (.ok decision) ∧
        es = notes ++ [Note.measured (.add (.reconciliationTime trigger) time)].filter wanted) ∨
      ∃ fault, r = .error fault ∧ Accounts trigger wanted synced es (.error fault))
      hrecovered ?_) ?_ ?_
    · intro es r hes
      refine (enters_measureSince htrusted start _).imp ?_
      rintro _ _ ⟨⟨time, rfl⟩, rfl⟩
      refine ⟨rfl, ?_⟩
      rcases hes with ⟨decision, rfl, hes⟩ |
        ⟨notes, fault, passed, line, rfl, hpassed, hline, hnotes, rfl⟩
      · exact .inl ⟨decision, es, time, rfl, hes, rfl⟩
      · refine .inr ⟨passed, rfl, ?_⟩
        rw [List.append_assoc, ← List.filter_append]
        exact .failed time hnotes hpassed hline
    · rintro _ decision (⟨_, notes, time, ⟨⟩, hnotes, rfl⟩ | ⟨_, ⟨⟩, -⟩)
      refine enters_bind (enters_recordSuccess htrusted trigger decision) ?_ ?_
      · rintro _ _ ⟨⟨line, hline, rfl⟩, -⟩
        refine enters_done ?_
        rw [List.append_nil, List.nil_append, List.append_assoc, ← List.filter_append]
        exact .finished time hnotes hline
      · rintro _ _ ⟨-, ⟨⟩⟩
    · rintro _ _ (⟨_, _, _, ⟨⟩, -⟩ | ⟨fault, ⟨⟩, haccounts⟩)
      exact haccounts
  · rintro _ _ ⟨-, _, ⟨⟩⟩

end Operator

/-! ## In a cluster -/

namespace Cluster

variable {τ : Type} {c d e : Cluster τ} {xs ys : List (Exchange (requests τ) (Fault τ))}

/-- The metrics, the lines and the events of a cluster have grown by what was left behind. -/
structure Adds (c : Cluster τ) (xs : List (Exchange (requests τ) (Fault τ))) (d : Cluster τ) :
    Prop where
  metrics : d.metrics = c.metrics ++ updates xs
  lines : d.record.lines = c.record.lines ++ lines xs
  events : d.record.events = c.record.events ++ events xs

theorem Adds.refl (c : Cluster τ) : c.Adds [] c :=
  ⟨(List.append_nil _).symm, (List.append_nil _).symm, (List.append_nil _).symm⟩

theorem Adds.trans (h : c.Adds xs d) (h' : d.Adds ys e) : c.Adds (xs ++ ys) e where
  metrics := by
    rw [h'.metrics, h.metrics, List.append_assoc, updates, updates, updates,
      List.filterMap_append, List.filterMap_append]
  lines := by
    rw [h'.lines, h.lines, List.append_assoc, Operator.lines, Operator.lines, Operator.lines,
      List.filterMap_append, List.filterMap_append]
  events := by
    rw [h'.events, h.events, List.append_assoc, Operator.events, Operator.events, Operator.events,
      List.filterMap_append, List.filterMap_append]

theorem Adds.of_same (h : c.Adds [] d) {x : Exchange (requests τ) (Fault τ)} (hx : note? x = none) :
    c.Adds [x] d := by
  have hnotes : [x].filterMap note? = [] := List.filterMap_cons_none hx
  refine ⟨?_, ?_, ?_⟩
  · rw [h.metrics, updates, updates, hnotes]
    rfl
  · rw [h.lines, Operator.lines, Operator.lines, hnotes]
    rfl
  · rw [h.events, Operator.events, Operator.events, hnotes]
    rfl

theorem adds_changeCache (change : Except Malformed (Cache τ)) (c : Cluster τ) :
    c.Adds [] (c.changeCache change).2 := by
  cases change with
  | ok cache => exact ⟨(Adds.refl c).1, (Adds.refl c).2, (Adds.refl c).3⟩
  | error reason => exact Adds.refl c

theorem adds_effect (space name : Value)
    (change : Server → Key → Except Refusal WireSecret × Server) (c : Cluster τ) :
    c.Adds [] (c.effect space name change).2 := by
  unfold effect
  cases Key.ofValues space name with
  | error reason => exact Adds.refl c
  | ok key => exact ⟨(Adds.refl c).1, (Adds.refl c).2, (Adds.refl c).3⟩

theorem adds_configure (source : ClientSource) (c : Cluster τ) :
    c.Adds [] (c.configure source).2 := by
  unfold configure
  cases c.clientFaults source with
  | some fault => exact ⟨(Adds.refl c).1, (Adds.refl c).2, (Adds.refl c).3⟩
  | none => exact ⟨(Adds.refl c).1, (Adds.refl c).2, (Adds.refl c).3⟩

variable [Time τ]

theorem adds_meet (call : Call) (c : Cluster τ) : c.Adds [] (c.meet call).2 :=
  ⟨(Adds.refl c).1, (Adds.refl c).2, (Adds.refl c).3⟩

theorem adds_read (space name : Value) (c : Cluster τ) : c.Adds [] (c.read space name).2 := by
  have hmeet := adds_meet { verb := .read, space := space, name := name } c
  unfold read
  generalize c.meet { verb := .read, space := space, name := name } = met at hmeet ⊢
  obtain ⟨disturbance?, d⟩ := met
  cases disturbance? with
  | some disturbance => exact hmeet
  | none =>
    dsimp only
    cases Key.ofValues space name with
    | error reason => exact hmeet
    | ok key => exact hmeet

theorem adds_write (call : Call) (change : Server → Key → Except Refusal WireSecret × Server)
    (c : Cluster τ) : c.Adds [] (c.write call change).2 := by
  have hmeet := adds_meet call c
  unfold write
  generalize c.meet call = met at hmeet ⊢
  obtain ⟨disturbance?, d⟩ := met
  have heffect := hmeet.trans (adds_effect call.space call.name change d)
  cases disturbance? with
  | some disturbance =>
    dsimp only
    split
    · exact heffect
    · exact hmeet
  | none => exact heffect

/-- What an exchange leaves behind is what the three grow by. -/
theorem adds_handle (timing : Resync.Timing τ) (q : (requests τ).Request) (c : Cluster τ) :
    c.Adds [⟨q, (handle timing q c).1⟩] (handle timing q c).2 := by
  have hsame := Adds.refl c
  cases q with
  | read space name => exact (adds_read space name c).of_same rfl
  | create space body => exact (adds_write _ _ c).of_same rfl
  | replace space name body => exact (adds_write _ _ c).of_same rfl
  | cachePut secret => exact (adds_changeCache _ c).of_same rfl
  | cacheForget space name => exact (adds_changeCache _ c).of_same rfl
  | measure update => exact ⟨rfl, hsame.2, hsame.3⟩
  | log line => exact ⟨hsame.1, rfl, hsame.3⟩
  | post event =>
    show c.Adds [⟨.post event, (c.post event).1⟩] (c.post event).2
    unfold post
    cases c.eventFault with
    | some fault => exact ⟨hsame.1, hsame.2, hsame.3⟩
    | none => exact ⟨hsame.1, hsame.2, rfl⟩
  | clusterConfig => exact (adds_configure .cluster c).of_same rfl
  | fileConfig => exact (adds_configure .file c).of_same rfl
  | _ => exact ⟨hsame.1, hsame.2, hsame.3⟩

/-- What a program leaves behind is what the three grow by. -/
theorem adds_run (timing : Resync.Timing τ) {α : Type} (p : Task τ α) (c : Cluster τ) :
    c.Adds (p.trace (handle timing) c) (p.run (handle timing) c).2 := by
  induction p generalizing c with
  | done r => exact Adds.refl c
  | ask q next ih =>
    rw [trace_ask, run_ask]
    exact (adds_handle timing q c).trans (ih _ _)

end Cluster

end SecretMirror
