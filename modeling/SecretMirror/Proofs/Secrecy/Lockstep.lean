import SecretMirror.Proofs.UntrustedCluster.Writes
import SecretMirror.Proofs.Secrecy.Clusters

/-!
# Two reconciliations in step

A reconciliation goes in step with itself where answers differ in the bytes of data only
(`inStep_reconcile`): it asks the same on both sides but for the data of what it caches or writes,
and ends with the same error or with decisions that differ in data only.  Most of what it asks is
answered the same anyway (`Operator.Request.IsDataFree`).

The one condition is that the two secrets that it finds have equal data on one side exactly if they
have on the other (`SameDrift`).  It is a condition on what was found on the way, so the exchanges
of both sides are given from the start and answers are taken from them.
-/

namespace SecretMirror

open Operator
open Program hiding bind ask

variable {τ α β : Type}

/-- The request is about no secret, or drops one, so its answer shows no data. -/
def Operator.Request.IsDataFree : Request τ → Prop
  | .cacheGet _ => False
  | .cachePut _ => False
  | .read .. => False
  | .create .. => False
  | .replace .. => False
  | _ => True

theorem Operator.Request.IsInert.isDataFree {q : Request τ} (h : q.IsInert) : q.IsDataFree := by
  cases q <;> first | exact trivial | exact h

/-- What corresponds on two sides: requests and answers that differ in data only, where the
exchanges are among those of their side. -/
def likeness (X Y : Set (Exchange (requests τ) (Fault τ))) : Pairing (requests τ) (Fault τ) where
  asks := Request.Alike
  meets x y := x.Alike y ∧ x ∈ X ∧ y ∈ Y

/-- The canonical secret and the mirror that were found on one side have equal data exactly if those
on the other side have. -/
def SameDrift (X Y : Set (Exchange (requests τ) (Fault τ))) : Prop :=
  ∀ s t s' t', Found X .source s → Found X .target t → Found Y .source s' → Found Y .target t' →
    Data.equal t.data s.data = Data.equal t'.data s'.data

namespace Lockstep

variable {X Y : Set (Exchange (requests τ) (Fault τ))} {R : α → β → Prop}

theorem fixes_of_isDataFree {q : Request τ} (hq : q.IsDataFree) : (likeness X Y).Fixes q where
  asks := .same q
  meets a a' h := by
    obtain ⟨halike, -, -⟩ := h
    cases q with
    | cacheGet key => exact hq.elim
    | cachePut s => exact hq.elim
    | read space name => exact hq.elim
    | create space body => exact hq.elim
    | replace space name body => exact hq.elim
    | _ =>
      cases halike
      rfl

theorem inStep_dataFree {p : Task τ α} (hp : p.AsksOnly Request.IsDataFree) :
    p.InStep (likeness X Y) Eq p :=
  inStep_self (hp.imp fun _ hq => fixes_of_isDataFree hq)

theorem inStep_books {p : Task τ α} (hp : IsBookkeeping p) : p.InStep (likeness X Y) Eq p :=
  inStep_dataFree (hp.imp fun _ hq => hq.isDataFree)

theorem inStep_checked {r : Except Malformed α} {r' : Except Malformed β} (h : Agree R r r') :
    (checked (τ := τ) r).InStep (likeness X Y) R (checked r') :=
  inStep_ofExcept (h.mapError _)

/-! ## The cache -/

theorem inStep_cacheGet (key : Key) :
    (ask (.cacheGet key) : Task τ (Option Secret)).InStep (likeness X Y)
      (Option.Rel fun s s' => s.Alike s' ∧ Found X key s ∧ Found Y key s')
      (ask (.cacheGet key)) := by
  refine inStep_request (.same _) fun a a' ⟨halike, hX, hY⟩ => ?_
  cases (halike : Agree (Option.Rel Secret.Alike) a a') with
  | error fault => exact .error fault
  | ok hfound =>
    cases hfound with
    | none => exact .ok .none
    | some hs => exact .ok (.some ⟨hs, found_of_cacheGet hX, found_of_cacheGet hY⟩)

theorem inStep_cachePut {s s' : Secret} (hs : s.Alike s') :
    (ask (.cachePut s) : Task τ Unit).InStep (likeness X Y) Eq (ask (.cachePut s')) :=
  inStep_request (.cachePut hs) fun a _ ⟨halike, _, _⟩ => by
    cases (halike : a = _)
    exact .refl fun _ _ => rfl

variable [Time τ]

/-! ## Look-ups -/

theorem inStep_spaced (rate : τ) {call : Task τ α} {call' : Task τ β}
    (hcall : call.InStep (likeness X Y) R call') :
    (spaced rate call).InStep (likeness X Y) R (spaced rate call') := by
  have hturn : (takeTurn rate).AsksOnly Request.IsDataFree :=
    asksOnly_takeTurn (fun _ hq => hq.isInert.isDataFree) (fun _ => trivial) rate
  rw [spaced, spaced]
  exact inStep_bind (inStep_dataFree hturn) fun _ _ _ => hcall

theorem inStep_readThrough (rate : τ) (space name : Value) :
    (readThrough rate space name).InStep (likeness X Y)
      (Option.Rel fun w w' => w.Alike w' ∧ ⟨.read space name, .ok w⟩ ∈ X ∧
        ⟨.read space name, .ok w'⟩ ∈ Y) (readThrough rate space name) := by
  have hcall : (ask (.read space name) : Task τ WireSecret).InStep (likeness X Y)
      (fun w w' => w.Alike w' ∧ ⟨.read space name, .ok w⟩ ∈ X ∧ ⟨.read space name, .ok w'⟩ ∈ Y)
      (ask (.read space name)) := by
    refine inStep_request (.same _) fun a a' ⟨halike, hX, hY⟩ => ?_
    cases (halike : Agree WireSecret.Alike a a') with
    | error fault => exact .error fault
    | ok hw => exact .ok ⟨hw, hX, hY⟩
  refine inStep_bind (inStep_books (isBookkeeping_ask trivial)) fun start _ hstart => ?_
  cases hstart
  refine inStep_always (inStep_recover ?_ fun fault => ?_)
    (inStep_books (isBookkeeping_measureSince _ _))
  · exact inStep_bind (inStep_spaced rate hcall) fun w w' hw => inStep_pure (.some hw)
  · unfold readFailure
    split
    · split
      · exact inStep_bind (inStep_books (isBookkeeping_count _)) fun _ _ _ => inStep_pure .none
      · exact inStep_bind (inStep_books (isBookkeeping_count _)) fun _ _ _ => inStep_fail fault
    · exact inStep_fail fault

theorem inStep_takeIn {P : Secret → Secret → Prop} (hP : ∀ s s', P s s' → s.Alike s')
    {raw raw' : WireSecret} (hraw : Agree P (Secret.ofWire raw) (Secret.ofWire raw')) :
    (takeIn (τ := τ) raw).InStep (likeness X Y) (Option.Rel P) (takeIn raw') := by
  unfold takeIn
  refine inStep_bind (inStep_books (isBookkeeping_count _)) fun _ _ _ => ?_
  refine inStep_bind (inStep_checked hraw) fun s s' hs => ?_
  exact inStep_bind (inStep_cachePut (hP s s' hs)) fun _ _ _ => inStep_pure (.some hs)

/-- Look-ups on both sides find secrets that differ in data only, or nothing. -/
theorem inStep_lookUp (rate : τ) (key : Key) {space name : Value}
    (hkey : Key.ofValues space name = .ok key) :
    (lookUp rate space name).InStep (likeness X Y)
      (Option.Rel fun s s' => s.Alike s' ∧ Found X key s ∧ Found Y key s')
      (lookUp rate space name) := by
  unfold lookUp
  have hkeys : Agree (fun own own' => own = key ∧ own' = key) (Key.ofValues space name)
      (Key.ofValues space name) := by
    rw [hkey]
    exact .ok ⟨rfl, rfl⟩
  refine inStep_bind (inStep_checked hkeys) fun _ _ ⟨h, h'⟩ => ?_
  cases h
  cases h'
  refine inStep_bind (inStep_cacheGet key) fun found found' hfound => ?_
  cases hfound with
  | some hs =>
    exact inStep_bind (inStep_books (isBookkeeping_count _)) fun _ _ _ => inStep_pure (.some hs)
  | none =>
    refine inStep_bind (inStep_readThrough rate space name) fun raw raw' hraw => ?_
    cases hraw with
    | none => exact inStep_pure .none
    | @some w w' hw =>
      obtain ⟨halike, hX, hY⟩ := hw
      refine inStep_takeIn (fun _ _ h => h.1) ?_
      have hread := Secret.alike_ofWire halike
      generalize hr : Secret.ofWire w = r, hr' : Secret.ofWire w' = r' at hread
      cases hread with
      | error m => exact .error m
      | ok hs =>
        have hfound : HasRead X key _ := ⟨space, name, w, hX, hkey, hr⟩
        have hfound' : HasRead Y key _ := ⟨space, name, w', hY, hkey, hr'⟩
        exact .ok ⟨hs, hfound.found, hfound'.found⟩

/-! ## Writes -/

theorem inStep_concludeWrite (operation : Operation) {secret secret' : Secret}
    (hs : secret.Alike secret') {raw raw' : Option WireSecret}
    (hraw : Option.Rel WireSecret.Alike raw raw') :
    (concludeWrite (τ := τ) operation secret raw).InStep (likeness X Y) Secret.Alike
      (concludeWrite operation secret' raw') := by
  have hcaches : ∀ stored stored' : Secret, stored.Alike stored' → (do
      ask (.cachePut stored)
      return stored : Task τ Secret).InStep (likeness X Y) Secret.Alike (do
      ask (.cachePut stored')
      return stored') := fun _ _ h =>
    inStep_bind (inStep_cachePut h) fun _ _ _ => inStep_pure h
  unfold concludeWrite
  refine inStep_bind (inStep_books (isBookkeeping_count _)) fun _ _ _ => ?_
  refine inStep_bind (inStep_books (isBookkeeping_count _)) fun _ _ _ => ?_
  cases hraw with
  | none => exact hcaches secret secret' hs
  | some hw => exact inStep_bind (inStep_checked (Secret.alike_ofWire hw)) hcaches

theorem inStep_write (rate : τ) (operation : Operation) {secret secret' : Secret}
    (hs : secret.Alike secret') {call call' : Task τ (Option WireSecret)}
    (hcall : call.InStep (likeness X Y) (Option.Rel WireSecret.Alike) call') :
    (write rate operation secret call).InStep (likeness X Y) Secret.Alike
      (write rate operation secret' call') := by
  have hfailure : ∀ fault : Fault τ, (writeFailure operation secret fault).InStep (likeness X Y)
      (Option.Rel WireSecret.Alike) (writeFailure operation secret' fault) := by
    obtain ⟨_, -, rfl⟩ := hs
    intro fault
    refine inStep_bind (inStep_books (isBookkeeping_count _)) fun _ _ _ => ?_
    refine inStep_bind (inStep_books (isBookkeeping_count _)) fun _ _ _ => ?_
    exact inStep_bind (inStep_books (isBookkeeping_ask trivial)) fun _ _ _ => inStep_fail fault
  unfold write
  refine inStep_bind (inStep_books (isBookkeeping_ask trivial)) fun start _ hstart => ?_
  cases hstart
  refine inStep_bind ?_ fun raw raw' hraw => inStep_concludeWrite operation hs hraw
  exact inStep_always (inStep_recover (inStep_spaced rate hcall) hfailure)
    (inStep_books (isBookkeeping_measureSince _ _))

theorem inStep_create (rate : τ) {secret secret' : Secret} (hs : secret.Alike secret') :
    (create rate secret).InStep (likeness X Y) Secret.Alike (create rate secret') := by
  unfold create
  refine inStep_bind (inStep_checked (Secret.alike_toWire hs)) fun body body' hbody => ?_
  refine inStep_write rate .create hs ?_
  obtain ⟨_, -, rfl⟩ := hs
  exact inStep_request (.create _ hbody.unversioned) fun _ _ h => h.1

theorem inStep_update (rate : τ) {secret secret' : Secret} (hs : secret.Alike secret') :
    (update rate secret).InStep (likeness X Y) Secret.Alike (update rate secret') := by
  unfold update
  refine inStep_write rate .update hs ?_
  refine inStep_bind (inStep_checked (Secret.alike_toWire hs)) fun body body' hbody => ?_
  obtain ⟨_, -, rfl⟩ := hs
  exact inStep_request (.replace _ _ hbody) fun _ _ h => h.1

/-! ## Reconciling -/

/-- What is emitted names the mirror and nothing of its data. -/
theorem inStep_perform (rate : τ) {d d' : Decision} (hd : d.Alike d') :
    (perform rate {} d).InStep (likeness X Y) Eq (perform rate {} d') := by
  have hpost : ∀ event : Operator.Event,
      (ask (.post event) : Task τ Unit).InStep (likeness X Y) Eq (ask (.post event)) :=
    fun _ => inStep_dataFree (behaves_request fun _ _ => trivial)
  cases hd with
  | noOp why => exact inStep_pure rfl
  | create hs =>
    rw [perform_create, perform_create]
    exact inStep_bind (inStep_create rate hs) fun _ _ _ => hpost _
  | update hs =>
    rw [perform_update, perform_update]
    exact inStep_bind (inStep_update rate hs) fun _ _ _ => hpost _

theorem inStep_sync (hdrift : SameDrift X Y) (rate : τ) :
    (sync rate {}).InStep (likeness X Y) Decision.Alike (sync rate {}) := by
  rw [sync_eq]
  refine inStep_bind (inStep_lookUp rate .source rfl) fun source source' hsource => ?_
  cases hsource with
  | none => exact inStep_checked (.ok (.noOp .sourceAbsent))
  | @some s s' hs =>
    obtain ⟨halike, hfound, hfound'⟩ := hs
    refine inStep_bind (inStep_lookUp rate .target rfl) fun target target' htarget => ?_
    have hdecided : Agree Decision.Alike (decide (some s) target (.text Names.target))
        (decide (some s') target' (.text Names.target)) := by
      cases htarget with
      | none => exact alike_decide halike .none (fun _ _ h => by cases h) _
      | some ht =>
        refine alike_decide halike (.some ht.1) (fun t t' h h' => ?_) _
        cases h
        cases h'
        exact hdrift _ _ _ _ hfound ht.2.1 hfound' ht.2.2
    refine inStep_bind (inStep_checked hdecided) fun d d' hd => ?_
    exact inStep_bind (inStep_perform rate hd) fun _ _ _ => inStep_pure hd

/-- Reconciliations on two sides that differ in data only end with the same error, or with decisions
that differ in data only. -/
theorem inStep_reconcile (hdrift : SameDrift X Y) (tuning : Tuning τ) (trigger : Value) :
    (reconcile tuning trigger).InStep (likeness X Y) Decision.Alike (reconcile tuning trigger) := by
  unfold reconcile reconcileConnected
  refine inStep_bind (inStep_books isBookkeeping_connect) fun _ _ _ => ?_
  refine inStep_bind (inStep_books (isBookkeeping_ask trivial)) fun start _ hstart => ?_
  cases hstart
  have hfailure : ∀ fault : Fault τ, (do
      recordFailure trigger fault
      passOn tuning.conflictDelay {} fault : Task τ Decision).InStep (likeness X Y) Decision.Alike
        (do
      recordFailure trigger fault
      passOn tuning.conflictDelay {} fault) := fun fault => by
    refine inStep_bind (inStep_books (isBookkeeping_recordFailure _ _)) fun _ _ _ => ?_
    unfold passOn
    split
    · exact inStep_bind (inStep_books (isBookkeeping_forgetBoth _)) fun _ _ _ => inStep_fail _
    · split
      · exact inStep_fail _
      · exact inStep_fail _
  refine inStep_bind (inStep_always (inStep_recover (inStep_sync hdrift tuning.rate) hfailure)
    (inStep_books (isBookkeeping_measureSince _ _))) fun d d' hd => ?_
  -- What is counted and logged of a decision is its action and its reason.
  have hrecord : recordSuccess (τ := τ) trigger d' = recordSuccess trigger d := by
    unfold recordSuccess
    rw [hd.action_eq, hd.reason_eq]
  rw [hrecord]
  exact inStep_bind (inStep_books (isBookkeeping_recordSuccess _ _)) fun _ _ _ => inStep_pure hd

end Lockstep

end SecretMirror
