import SecretMirror.Proofs.Completion
import SecretMirror.Proofs.Deciding
import SecretMirror.Proofs.Wire.RoundTrip
import SecretMirror.Sync

/-!
# How a synchronisation is conducted

`Sync.Conducts` lists how a synchronisation may go with collaborators that may answer anything and
fail at every request, as exchanges in order and a result: one look-up of the source; if it brought
a secret, one look-up of the target; if something is to be written, one write of exactly that; if
the write succeeded, one event that tells of it.  The first failure is the result and nothing is
asked after it.  A synchronisation goes in exactly these ways (`Sync.completes_sync_iff`).

So over a series of synchronisations (`Sync.Pass`) of which every event could be emitted, the events
tell of the successful writes, one each and in their order (`Sync.emitted_eq_written`).
-/

namespace SecretMirror.Sync

open Program hiding bind ask

variable {τ : Type}

def Places.createdMessage (p : Places) : String := s!"Secret {p.targetPath} created"

def Places.updatedMessage (p : Places) : String := s!"Secret {p.targetPath} updated"

/-- What is asked to carry a decision out, and how it ends: at most one write, and then at most one
event.  A write that fails is the end of it. -/
inductive Executes (p : Places) :
    Decision → List (Exchange collaborators (Fault τ)) → Except (Fault τ) Unit → Prop where
  | noOp (why : NoOpReason) : Executes p (.noOp why) [] (.ok ())
  | createFails (secret : Secret) (fault : Fault τ) :
    Executes p (.create secret) [⟨.create secret, .error fault⟩] (.error fault)
  | creates (secret stored : Secret) (emitted : Except (Fault τ) Unit) :
    Executes p (.create secret)
      [⟨.create secret, .ok stored⟩, ⟨.emit Names.createdReason p.createdMessage, emitted⟩]
      emitted
  | updateFails (secret : Secret) (fault : Fault τ) :
    Executes p (.update secret) [⟨.update secret, .error fault⟩] (.error fault)
  | updates (secret stored : Secret) (emitted : Except (Fault τ) Unit) :
    Executes p (.update secret)
      [⟨.update secret, .ok stored⟩, ⟨.emit Names.updatedReason p.updatedMessage, emitted⟩]
      emitted

/-- What is asked in a synchronisation, and how it ends, one rule for each way.  Only a source
without a data section leaves nothing decided. -/
inductive Conducts (p : Places) :
    List (Exchange collaborators (Fault τ)) → Except (Fault τ) Decision → Prop where
  | sourceFails (fault : Fault τ) :
    Conducts p [⟨.lookUp p.space p.source, .error fault⟩] (.error fault)
  | sourceAbsent : Conducts p [⟨.lookUp p.space p.source, .ok none⟩] (.ok (.noOp .sourceAbsent))
  | targetFails (source : Secret) (fault : Fault τ) :
    Conducts p [⟨.lookUp p.space p.source, .ok (some source)⟩,
      ⟨.lookUp p.space p.target, .error fault⟩] (.error fault)
  | undecided {source : Secret} {target : Option Secret} {reason : Malformed}
    (hdata : source.data = none)
    (hdecide : decide (some source) target p.target = .error reason) :
    Conducts p [⟨.lookUp p.space p.source, .ok (some source)⟩,
      ⟨.lookUp p.space p.target, .ok target⟩] (.error (.malformed reason))
  | decided {source : Secret} {target : Option Secret} {decision : Decision}
    {xs : List (Exchange collaborators (Fault τ))} {r : Except (Fault τ) Unit}
    (hdecide : decide (some source) target p.target = .ok decision)
    (hexecutes : Executes p decision xs r) :
    Conducts p (⟨.lookUp p.space p.source, .ok (some source)⟩ ::
      ⟨.lookUp p.space p.target, .ok target⟩ :: xs) (r.map fun _ => decision)

/-! ## The ways to go -/

theorem completes_execute_iff {p : Places} {decision : Decision}
    {xs : List (Exchange collaborators (Fault τ))} {r : Except (Fault τ) Unit} :
    (execute p decision).Completes xs r ↔ Executes p decision xs r := by
  cases decision with
  | noOp why =>
    refine completes_done_iff.trans ⟨?_, ?_⟩
    · rintro ⟨rfl, rfl⟩
      exact .noOp why
    · rintro ⟨⟩
      exact ⟨rfl, rfl⟩
  | create secret =>
    refine completes_request_bind_iff.trans ⟨?_, ?_⟩
    · rintro (⟨fault, rfl, rfl⟩ | ⟨stored, ys, rfl, hemit⟩)
      · exact .createFails secret fault
      · obtain rfl := completes_request_iff.1 hemit
        exact .creates secret stored r
    · intro h
      cases h with
      | createFails _ fault => exact .inl ⟨fault, rfl, rfl⟩
      | creates _ stored => exact .inr ⟨stored, _, rfl, completes_request_iff.2 rfl⟩
  | update secret =>
    refine completes_request_bind_iff.trans ⟨?_, ?_⟩
    · rintro (⟨fault, rfl, rfl⟩ | ⟨stored, ys, rfl, hemit⟩)
      · exact .updateFails secret fault
      · obtain rfl := completes_request_iff.1 hemit
        exact .updates secret stored r
    · intro h
      cases h with
      | updateFails _ fault => exact .inl ⟨fault, rfl, rfl⟩
      | updates _ stored => exact .inr ⟨stored, _, rfl, completes_request_iff.2 rfl⟩

/-- Only a source without a data section leaves nothing decided. -/
theorem data_eq_none_of_decide {source : Secret} {target : Option Secret} {name : Value}
    {reason : Malformed} (h : decide (some source) target name = .error reason) :
    source.data = none := by
  cases hdata : source.data with
  | none => rfl
  | some data =>
    have hpresent : ∀ s, some source = some s → ∃ data, s.data = some data := by
      rintro s ⟨⟩
      exact ⟨data, hdata⟩
    obtain ⟨decision, hrule⟩ := exists_decides name target hpresent
    rw [decide_eq_ok_iff.2 hrule] at h
    cases h

theorem completes_decided_bind_iff {source target : Option Secret} {name : Value} {α : Type}
    {f : Decision → Program collaborators (Fault τ) α}
    {xs : List (Exchange collaborators (Fault τ))} {r : Except (Fault τ) α} :
    (decided source target name >>= f).Completes xs r ↔
      (∃ reason, decide source target name = .error reason ∧ xs = [] ∧
        r = .error (.malformed reason)) ∨
        ∃ decision, decide source target name = .ok decision ∧ (f decision).Completes xs r := by
  unfold decided
  cases decide source target name with
  | error reason =>
    refine completes_done_iff.trans ⟨?_, ?_⟩
    · rintro ⟨rfl, rfl⟩
      exact .inl ⟨reason, rfl, rfl, rfl⟩
    · rintro (⟨_, ⟨⟩, rfl, rfl⟩ | ⟨_, ⟨⟩, -⟩)
      exact ⟨rfl, rfl⟩
  | ok decision =>
    constructor
    · exact fun h => .inr ⟨decision, rfl, h⟩
    · rintro (⟨_, ⟨⟩, -⟩ | ⟨_, ⟨⟩, h⟩)
      exact h

/-- A synchronisation goes in exactly the ways that are listed. -/
theorem completes_sync_iff {p : Places} {xs : List (Exchange collaborators (Fault τ))}
    {r : Except (Fault τ) Decision} : (sync p).Completes xs r ↔ Conducts p xs r := by
  -- From left to right the requests are followed one after another; each answer that ends the
  -- synchronisation is a rule of `Conducts`.
  constructor
  · intro h
    rcases completes_request_bind_iff.1 h with ⟨fault, rfl, rfl⟩ | ⟨found, ys, rfl, h₁⟩
    · exact .sourceFails fault
    cases found with
    | none =>
      obtain ⟨rfl, rfl⟩ := completes_done_iff.1 h₁
      exact .sourceAbsent
    | some source =>
      rcases completes_request_bind_iff.1 h₁ with ⟨fault, rfl, rfl⟩ | ⟨target, zs, rfl, h₂⟩
      · exact .targetFails source fault
      rcases completes_decided_bind_iff.1 h₂ with
        ⟨reason, hdecide, rfl, rfl⟩ | ⟨decision, hdecide, h₃⟩
      · exact .undecided (data_eq_none_of_decide hdecide) hdecide
      · obtain ⟨a, hexecute, rfl⟩ := completes_bind_pure_iff.1 h₃
        exact .decided hdecide (completes_execute_iff.1 hexecute)
  · intro h
    refine completes_request_bind_iff.2 ?_
    cases h with
    | sourceFails fault => exact .inl ⟨fault, rfl, rfl⟩
    | sourceAbsent => exact .inr ⟨none, [], rfl, completes_done_iff.2 ⟨rfl, rfl⟩⟩
    | targetFails source fault =>
      refine .inr ⟨some source, _, rfl, completes_request_bind_iff.2 ?_⟩
      exact .inl ⟨fault, rfl, rfl⟩
    | @undecided source target reason hdata hdecide =>
      refine .inr ⟨some source, _, rfl, completes_request_bind_iff.2 ?_⟩
      refine .inr ⟨target, [], rfl, completes_decided_bind_iff.2 ?_⟩
      exact .inl ⟨reason, hdecide, rfl, rfl⟩
    | @decided source target decision ys a hdecide hexecutes =>
      refine .inr ⟨some source, _, rfl, completes_request_bind_iff.2 ?_⟩
      refine .inr ⟨target, ys, rfl, completes_decided_bind_iff.2 ?_⟩
      refine .inr ⟨decision, hdecide, completes_bind_pure_iff.2 ?_⟩
      exact ⟨a, completes_execute_iff.2 hexecutes, rfl⟩

/-! ## Series of synchronisations -/

/-- The reason and the message of an event that was emitted without a fault. -/
def emitted? : Exchange collaborators (Fault τ) → Option (String × String)
  | ⟨.emit reason message, .ok _⟩ => some (reason, message)
  | _ => none

/-- The reason and the message that belong to a successful write, by its kind. -/
def Places.written? (p : Places) : Exchange collaborators (Fault τ) → Option (String × String)
  | ⟨.create _, .ok _⟩ => some (Names.createdReason, p.createdMessage)
  | ⟨.update _, .ok _⟩ => some (Names.updatedReason, p.updatedMessage)
  | _ => none

def FailsToEmit : Exchange collaborators (Fault τ) → Prop
  | ⟨.emit .., .error _⟩ => True
  | _ => False

instance : DecidablePred (FailsToEmit (τ := τ))
  | ⟨.emit .., .error _⟩ => isTrue trivial
  | ⟨.emit .., .ok _⟩ => isFalse id
  | ⟨.lookUp .., _⟩ => isFalse id
  | ⟨.create _, _⟩ => isFalse id
  | ⟨.update _, _⟩ => isFalse id

/-- One synchronisation from its beginning to its end. -/
structure Pass (τ : Type) where
  places : Places
  exchanges : List (Exchange collaborators (Fault τ))
  result : Except (Fault τ) Decision
  completes : (sync places).Completes exchanges result

namespace Pass

/-- The events of a pass. -/
def emitted (pass : Pass τ) : List (String × String) := pass.exchanges.filterMap emitted?

/-- What is to be told of the successful writes of a pass. -/
def written (pass : Pass τ) : List (String × String) :=
  pass.exchanges.filterMap pass.places.written?

/-- Runs a synchronisation with collaborators that keep a state. -/
def ofRun {S : Type} (handle : (q : collaborators.Request) → S →
    Except (Fault τ) (collaborators.Answer q) × S) (places : Places) (s : S) : Pass τ where
  places := places
  exchanges := (sync places).trace handle s
  result := ((sync places).run handle s).1
  completes := completes_trace handle _ s

end Pass

theorem Executes.filterMap_eq {p : Places} {decision : Decision}
    {xs : List (Exchange collaborators (Fault τ))} {r : Except (Fault τ) Unit}
    (h : Executes p decision xs r) (hemitted : ∀ x ∈ xs, ¬ FailsToEmit x) :
    xs.filterMap emitted? = xs.filterMap p.written? := by
  cases h with
  | noOp why => rfl
  | createFails secret fault => rfl
  | updateFails secret fault => rfl
  | creates secret stored =>
    cases r with
    | ok _ => rfl
    | error fault => exact absurd trivial (hemitted _ (.tail _ (.head _)))
  | updates secret stored =>
    cases r with
    | ok _ => rfl
    | error fault => exact absurd trivial (hemitted _ (.tail _ (.head _)))

theorem Pass.emitted_eq (pass : Pass τ)
    (hemitted : ∀ x ∈ pass.exchanges, ¬ FailsToEmit x) : pass.emitted = pass.written := by
  obtain ⟨places, xs, r, hcompletes⟩ := pass
  show xs.filterMap emitted? = xs.filterMap places.written?
  cases completes_sync_iff.1 hcompletes with
  | sourceFails fault => rfl
  | sourceAbsent => rfl
  | targetFails source fault => rfl
  | undecided hdata hdecide => rfl
  | decided hdecide hexecutes =>
    exact hexecutes.filterMap_eq fun x hx =>
      hemitted x (List.mem_cons_of_mem _ (List.mem_cons_of_mem _ hx))

/-- The events of a series tell of its successful writes, one each and in their order. -/
theorem emitted_eq_written (passes : List (Pass τ))
    (hemitted : ∀ pass ∈ passes, ∀ x ∈ pass.exchanges, ¬ FailsToEmit x) :
    passes.flatMap Pass.emitted = passes.flatMap Pass.written := by
  rw [List.flatMap_def, List.flatMap_def]
  congr 1
  exact List.map_congr_left fun pass hpass => pass.emitted_eq (hemitted pass hpass)

/-- Whatever the collaborators do, a synchronisation goes in the ways that are listed and in no
others.  In a series of synchronisations the events that could be emitted are those of the
successful writes, one for each and in the same order. -/
theorem sync_conducts :
    (∀ (p : Places) (xs : List (Exchange collaborators (Fault τ))) (r : Except (Fault τ) Decision),
      (sync p).Completes xs r ↔ Conducts p xs r) ∧
    ∀ passes : List (Pass τ), (∀ pass ∈ passes, ∀ x ∈ pass.exchanges, ¬ FailsToEmit x) →
      passes.flatMap Pass.emitted = passes.flatMap Pass.written :=
  ⟨fun _ _ _ => completes_sync_iff, emitted_eq_written⟩

namespace Example

/-- A store with one canonical secret and perhaps a mirror, which refuses some writes first. -/
def answer : (q : collaborators.Request) → Option Secret × Nat →
    Except (Fault Nat) (collaborators.Answer q) × (Option Secret × Nat)
  | .lookUp _ name, (mirror, refusals) =>
    (.ok (if name.text? = some Names.target then mirror else some SecretMirror.Example.source),
      (mirror, refusals))
  | .create secret, (_, 0) => (.ok secret, (some secret, 0))
  | .create _, (mirror, refusals + 1) =>
    (.error (.plain .timeout "timed out"), (mirror, refusals))
  | .update secret, (_, 0) => (.ok secret, (some secret, 0))
  | .update _, (mirror, refusals + 1) =>
    (.error (.plain .timeout "timed out"), (mirror, refusals))
  | .emit .., s => (.ok (), s)

/-- A first synchronisation whose write is refused, and one that succeeds. -/
def passes : List (Pass Nat) := [.ofRun answer {} (none, 1), .ofRun answer {} (none, 0)]

end Example

set_option maxRecDepth 10000 in
/-- A write that was refused is not emitted. -/
theorem sync_conducts_after_refusal :
    (∀ pass ∈ Example.passes, ∀ x ∈ pass.exchanges, ¬ FailsToEmit x) ∧
      Example.passes.flatMap Pass.emitted = Example.passes.flatMap Pass.written ∧
      Example.passes.flatMap Pass.written = [("SecretCreated",
        "Secret openshift-config-managed/encryption-config-oauth-apiserver created")] := by
  have hemitted : ∀ pass ∈ Example.passes, ∀ x ∈ pass.exchanges, ¬ FailsToEmit x := by
    with_unfolding_all decide +kernel
  refine ⟨hemitted, sync_conducts.2 Example.passes hemitted, ?_⟩
  with_unfolding_all decide +kernel

end SecretMirror.Sync
