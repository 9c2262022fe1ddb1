import SecretMirror.Operator.Reconcile
import SecretMirror.Proofs.Tracing

/-!
# The parts of an activity

Much of what the operator asks of its surroundings is inert (`Operator.Request.IsInert`): readings,
counts, log lines, the configuration of the client, and cached secrets that are dropped.  No secret
comes in by such a request, nothing goes out to the API, and no time passes.  The parts of an
activity that are bookkeeping ask nothing else, whatever they are told; each of them is listed here
once.  Around a call of the API only a routine is asked for (`Operator.Request.IsRoutine`), in which
nothing is counted but calls.  What a look-up has read it takes in (`takeIn`), and a write that was
answered is concluded by caching what is stored now (`concludeWrite`).

Calls of the API (`Operator.Request.IsCall`) are made by reads and writes alone.  Before each of
them its turn is taken (`spaced`).  A synchronisation is put together from two look-ups, the
decision, and what is done about it (`sync_eq`).
-/

namespace SecretMirror.Operator

open Program hiding bind ask

variable {τ α : Type}

/-- The request calls the API. -/
def Request.IsCall : Request τ → Prop
  | .read .. => True
  | .create .. => True
  | .replace .. => True
  | _ => False

/-- The request takes no time and brings no secret in or out.  What is dropped from the cache does
not count as brought out. -/
def Request.IsInert : Request τ → Prop
  | .sleep _ => False
  | .cacheGet _ => False
  | .cachePut _ => False
  | .read .. => False
  | .create .. => False
  | .replace .. => False
  | .post _ => False
  | _ => True

/-- The request belongs to the routine around a call of the API: it reads the clock, takes a turn,
drops what is cached, or counts or times calls. -/
def Request.IsRoutine : Request τ → Prop
  | .now => True
  | .lastCall => True
  | .recordCall _ => True
  | .cacheForget .. => True
  | .measure update => update.series.metric = .apiCalls ∨ update.series.metric = .apiCallTime
  | _ => False

/-- The request counts a write. -/
def Request.CountsWrite : Request τ → Prop
  | .measure update => update.series.metric = .writes
  | _ => False

/-- The request writes nothing through the API and emits no event. -/
def Request.IsHarmless : Request τ → Prop
  | .create .. => False
  | .replace .. => False
  | .post _ => False
  | _ => True

theorem Request.IsRoutine.isInert {q : Request τ} (h : q.IsRoutine) : q.IsInert := by
  cases q <;> first | exact trivial | exact h

theorem Request.CountsWrite.isInert {q : Request τ} (h : q.CountsWrite) : q.IsInert := by
  cases q <;> first | exact trivial | exact h

theorem Request.IsInert.isHarmless {q : Request τ} (h : q.IsInert) : q.IsHarmless := by
  cases q <;> first | exact trivial | exact h

theorem Request.IsInert.not_isCall {q : Request τ} (h : q.IsInert) : ¬ q.IsCall := by
  intro hcall
  cases q <;> first | exact h | exact hcall

/-- The program reads the clock, counts, logs, configures the client and drops cached secrets, and
does nothing else, whatever it is answered. -/
abbrev IsBookkeeping (p : Task τ α) : Prop := p.AsksOnly Request.IsInert

/-- The program makes no call of the API, whatever it is answered. -/
abbrev CallsNothing (p : Task τ α) : Prop := p.AsksOnly fun q : Request τ => ¬ q.IsCall

theorem IsBookkeeping.callsNothing {p : Task τ α} (hp : IsBookkeeping p) : CallsNothing p :=
  hp.imp fun _ hq => hq.not_isCall

theorem callsNothing_ask {q : Request τ} (hq : ¬ q.IsCall) : CallsNothing (ask q) :=
  behaves_request fun _ _ => hq

/-- What was computed without asking keeps every contract, and its value is known. -/
theorem keeps_checked {K : Type} [Preorder K] {c : Contract (requests τ) (Fault τ) K}
    {P : K → α → Prop} {r : Except Malformed α} {k : K}
    (h : ∀ a, r = .ok a → ∀ l, k ≤ l → P l a) : (checked (τ := τ) r).Keeps c P k := by
  refine keeps_ofExcept fun a ha => h a ?_
  cases r with
  | error reason => simp [Except.mapError] at ha
  | ok b => simpa [Except.mapError] using ha

theorem isBookkeeping_checked (r : Except Malformed α) : IsBookkeeping (checked (τ := τ) r) :=
  keeps_ofExcept fun _ _ _ _ => trivial

/-- What is done asks nothing. -/
theorem asksOnly_done (P : Request τ → Prop) (r : Except (Fault τ) α) :
    (Program.done r : Task τ α).AsksOnly P :=
  fun _ _ _ _ => trivial

/-- The program goes through routine and does nothing else. -/
abbrev AsksRoutine (p : Task τ α) : Prop := p.AsksOnly Request.IsRoutine

theorem asksRoutine_ask {q : Request τ} (hq : q.IsRoutine) : AsksRoutine (ask q) :=
  behaves_request fun _ _ => hq

theorem asksRoutine_bind {β : Type} {p : Task τ α} {f : α → Task τ β} (hp : AsksRoutine p)
    (hf : ∀ a, AsksRoutine (f a)) : AsksRoutine (p >>= f) :=
  behaves_bind hp fun _ _ a => hf a

theorem isBookkeeping_pure (a : α) : IsBookkeeping (pure a : Task τ α) :=
  keeps_pure fun _ _ => trivial

theorem isBookkeeping_ask {q : Request τ} (hq : q.IsInert) : IsBookkeeping (ask q) :=
  behaves_request fun _ _ => hq

theorem isBookkeeping_bind {β : Type} {p : Task τ α} {f : α → Task τ β} (hp : IsBookkeeping p)
    (hf : ∀ a, IsBookkeeping (f a)) : IsBookkeeping (p >>= f) :=
  behaves_bind hp fun _ _ a => hf a

theorem asksRoutine_forgetBoth (places : Sync.Places) :
    AsksRoutine (forgetBoth (τ := τ) places) :=
  asksRoutine_bind (asksRoutine_ask trivial) fun _ => asksRoutine_ask trivial

theorem isBookkeeping_forgetBoth (places : Sync.Places) :
    IsBookkeeping (forgetBoth (τ := τ) places) :=
  (asksRoutine_forgetBoth places).imp fun _ hq => hq.isInert

theorem asksRoutine_passOn (delay : τ) (places : Sync.Places) (fault : Fault τ) :
    AsksRoutine (passOn delay places fault) := by
  unfold passOn
  split
  · exact asksRoutine_bind (asksRoutine_forgetBoth places) fun _ => asksOnly_done _ _
  · split
    · exact asksOnly_done _ _
    · exact asksOnly_done _ _

theorem isBookkeeping_passOn (delay : τ) (places : Sync.Places) (fault : Fault τ) :
    IsBookkeeping (passOn delay places fault) :=
  (asksRoutine_passOn delay places fault).imp fun _ hq => hq.isInert

/-- To configure the client is to ask for one configuration or two. -/
theorem asksOnly_connect {P : Request τ → Prop} (hcluster : P .clusterConfig)
    (hfile : P .fileConfig) : (connect (τ := τ)).AsksOnly P := by
  refine keeps_recover (behaves_request fun _ _ => hcluster) fun _ _ fault => ?_
  split
  · split
    · exact behaves_request fun _ _ => hfile
    · exact asksOnly_done _ _
  · exact asksOnly_done _ _

theorem isBookkeeping_connect : IsBookkeeping (connect (τ := τ)) :=
  asksOnly_connect trivial trivial

/-- To take an event in is to drop a secret from the cache or to put the one that it shows there. -/
theorem asksOnly_observe {P : Request τ → Prop} (eventType body name space : Value)
    (hforget : P (.cacheForget space name))
    (hput : eventType.text? ≠ some "DELETED" → ∀ s, Secret.ofBody body = .ok s → P (.cachePut s)) :
    (observe eventType body name space).AsksOnly P := by
  unfold observe
  split
  · exact behaves_request fun _ _ => hforget
  · next hdeleted =>
    refine keeps_bind (P := fun _ s => Secret.ofBody body = .ok s)
      (keeps_checked fun s hs _ _ => hs) fun _ _ s hs => ?_
    exact behaves_request fun _ _ => hput hdeleted s hs

variable [Time τ]

theorem isBookkeeping_count (s : Series) : IsBookkeeping (count (τ := τ) s) :=
  isBookkeeping_ask trivial

theorem isBookkeeping_measureSince (start : τ) (s : Series) :
    IsBookkeeping (measureSince start s) :=
  isBookkeeping_bind (isBookkeeping_ask trivial) fun _ => isBookkeeping_ask trivial

theorem asksRoutine_count {s : Series} (hs : s.metric = .apiCalls) :
    AsksRoutine (count (τ := τ) s) :=
  asksRoutine_ask (.inl hs)

theorem asksRoutine_measureSince (start : τ) {s : Series} (hs : s.metric = .apiCallTime) :
    AsksRoutine (measureSince start s) :=
  asksRoutine_bind (asksRoutine_ask trivial) fun _ => asksRoutine_ask (.inr hs)

theorem asksRoutine_readFailure (fault : Fault τ) : AsksRoutine (readFailure fault) := by
  unfold readFailure
  split
  · split
    · exact asksRoutine_bind (asksRoutine_count rfl) fun _ => asksOnly_done _ _
    · exact asksRoutine_bind (asksRoutine_count rfl) fun _ => asksOnly_done _ _
  · exact asksOnly_done _ _

theorem isBookkeeping_readFailure (fault : Fault τ) : IsBookkeeping (readFailure fault) :=
  (asksRoutine_readFailure fault).imp fun _ hq => hq.isInert

theorem asksOnly_writeFailure {P : Request τ → Prop} (hroutine : ∀ q, Request.IsRoutine q → P q)
    (hwrites : ∀ q, Request.CountsWrite q → P q) (operation : Operation) (secret : Secret)
    (fault : Fault τ) : (writeFailure operation secret fault).AsksOnly P := by
  refine behaves_bind ((asksRoutine_count rfl).imp hroutine) fun _ _ _ => ?_
  refine behaves_bind (behaves_request fun _ _ => hwrites _ rfl) fun _ _ _ => ?_
  exact behaves_bind (behaves_request fun _ _ => hroutine _ trivial) fun _ _ _ => asksOnly_done _ _

theorem isBookkeeping_writeFailure (operation : Operation) (secret : Secret) (fault : Fault τ) :
    IsBookkeeping (writeFailure operation secret fault) :=
  asksOnly_writeFailure (fun _ hq => hq.isInert) (fun _ hq => hq.isInert) operation secret fault

theorem isBookkeeping_recordFailure (trigger : Value) (fault : Fault τ) :
    IsBookkeeping (recordFailure trigger fault) := by
  refine isBookkeeping_bind (isBookkeeping_count _) fun _ => ?_
  refine isBookkeeping_bind (isBookkeeping_count _) fun _ => ?_
  exact isBookkeeping_bind (isBookkeeping_checked _) fun _ => isBookkeeping_ask trivial

theorem isBookkeeping_recordSuccess (trigger : Value) (decision : Decision) :
    IsBookkeeping (recordSuccess (τ := τ) trigger decision) := by
  refine isBookkeeping_bind (isBookkeeping_count _) fun _ => ?_
  exact isBookkeeping_bind (isBookkeeping_checked _) fun _ => isBookkeeping_ask trivial

/-! ## The lines about reconciliations -/

/-- The line about a failed reconciliation.  It depends on the text of the fault, but there always
is one (`exists_failureLine`). -/
def failureLine (trigger : String) (fault : Fault τ) : Except Malformed Log.Line :=
  Log.errorLine (.text Names.secretKind) targetMetadata (.text "Reconciliation failed")
    (some fault)
    [("event", .text "reconcile_failed"), ("reason", .text "ReconcileFailed"),
      ("trigger", .text trigger)]

/-- The line about a finished reconciliation, by its action and its reason. -/
def successLine (trigger : String) (decision : Decision) : Except Malformed Log.Line :=
  Log.informLine (.text Names.secretKind) targetMetadata
    (.text s!"Reconciliation finished: {decision.action.name}")
    [("event", .text "reconciled"), ("reason", .text decision.reason), ("trigger", .text trigger)]

omit [Time τ] in
/-- A failed reconciliation can always be logged: all its fields are texts, so none is refused or
cannot be written. -/
theorem exists_failureLine (trigger : String) (fault : Fault τ) :
    ∃ line, failureLine trigger fault = .ok line ∧ line.level = Log.errorLevel :=
  ⟨_, rfl, rfl⟩

theorem exists_successLine (trigger : String) (decision : Decision) :
    ∃ line, successLine trigger decision = .ok line ∧ line.level = Log.infoLevel :=
  ⟨_, rfl, rfl⟩

/-! ## What follows a call -/

theorem asksOnly_takeIn {P : Request τ → Prop} (hroutine : ∀ q, Request.IsRoutine q → P q)
    (hput : ∀ s, P (.cachePut s)) (raw : WireSecret) : (takeIn (τ := τ) raw).AsksOnly P := by
  refine behaves_bind ((asksRoutine_count rfl).imp hroutine) fun _ _ _ => ?_
  refine behaves_bind (asksOnly_done _ _) fun _ _ s => ?_
  exact behaves_bind (behaves_request fun _ _ => hput s) fun _ _ _ => asksOnly_done _ _

theorem asksOnly_concludeWrite {P : Request τ → Prop}
    (hroutine : ∀ q, Request.IsRoutine q → P q) (hwrites : ∀ q, Request.CountsWrite q → P q)
    (hput : ∀ s, P (.cachePut s)) (operation : Operation) (secret : Secret)
    (raw : Option WireSecret) : (concludeWrite (τ := τ) operation secret raw).AsksOnly P := by
  unfold concludeWrite
  refine behaves_bind ((asksRoutine_count rfl).imp hroutine) fun _ _ _ => ?_
  refine behaves_bind (behaves_request fun _ _ => hwrites _ rfl) fun _ _ _ => ?_
  have hcaches : ∀ stored : Secret, (do
      ask (.cachePut stored)
      return stored : Task τ Secret).AsksOnly P := fun stored =>
    behaves_bind (behaves_request fun _ _ => hput stored) fun _ _ _ => asksOnly_done _ _
  cases raw with
  | none => exact hcaches secret
  | some w => exact behaves_bind (asksOnly_done _ _) fun _ _ stored => hcaches stored

/-! ## Taking turns -/

/-- The request belongs to taking a turn: it reads the clock or the time of the last call, waits, or
notes the time of a call. -/
def Request.TakesTurn : Request τ → Prop
  | .now => True
  | .lastCall => True
  | .sleep _ => True
  | .recordCall _ => True
  | _ => False

theorem takesTurn_takeTurn (rate : τ) : (takeTurn rate).AsksOnly Request.TakesTurn := by
  have hasks : ∀ {q : Request τ}, q.TakesTurn → (ask q).AsksOnly Request.TakesTurn := fun hq =>
    behaves_request fun _ _ => hq
  have hstarts : (do
      let start ← now
      ask (.recordCall start) : Task τ Unit).AsksOnly Request.TakesTurn :=
    behaves_bind (hasks trivial) fun _ _ start => hasks trivial
  unfold takeTurn
  refine behaves_bind (keeps_ofExcept fun _ _ _ _ => trivial) fun _ _ spacing => ?_
  refine behaves_bind (hasks trivial) fun _ _ time => ?_
  refine behaves_bind (hasks trivial) fun _ _ last => ?_
  dsimp only
  split
  · exact behaves_bind (hasks trivial) fun _ _ _ => hstarts
  · exact hstarts

/-- To take a turn is to go through routine and perhaps to wait. -/
theorem asksOnly_takeTurn {P : Request τ → Prop} (hroutine : ∀ q, Request.IsRoutine q → P q)
    (hsleep : ∀ time, P (.sleep time)) (rate : τ) : (takeTurn rate).AsksOnly P := by
  refine (takesTurn_takeTurn rate).imp fun q hq => ?_
  cases q with
  | now => exact hroutine _ trivial
  | lastCall => exact hroutine _ trivial
  | recordCall time => exact hroutine _ trivial
  | sleep time => exact hsleep time
  | _ => exact hq.elim

/-- A call that is spaced, with what follows it, is a turn and then the call with what follows. -/
theorem spaced_bind (rate : τ) (call : Task τ α) (f : α → Task τ β) :
    spaced rate call >>= f = takeTurn rate >>= fun _ => call >>= f :=
  bind_assoc _ _ f

section

variable {P : Request τ → Prop} (hroutine : ∀ q, Request.IsRoutine q → P q)
  (hsleep : ∀ time, P (.sleep time)) (hget : ∀ key, P (.cacheGet key)) (hput : ∀ s, P (.cachePut s))
  (hwrites : ∀ q, Request.CountsWrite q → P q)

include hroutine hsleep

theorem asksOnly_spaced (rate : τ) {call : Task τ α} (hcall : call.AsksOnly P) :
    (spaced rate call).AsksOnly P := by
  rw [spaced]
  exact behaves_bind (asksOnly_takeTurn hroutine hsleep rate) fun _ _ _ => hcall

/-- A read through the API reads nothing else. -/
theorem asksOnly_readThrough (rate : τ) {space name : Value} (hread : P (.read space name)) :
    (readThrough rate space name).AsksOnly P := by
  refine behaves_bind (behaves_request fun _ _ => hroutine _ trivial) fun _ _ start => ?_
  refine keeps_always (keeps_recover ?_ fun _ _ fault =>
    (asksRoutine_readFailure fault).imp hroutine) fun _ _ =>
      (asksRoutine_measureSince _ rfl).imp hroutine
  exact behaves_bind (asksOnly_spaced hroutine hsleep rate (behaves_request fun _ _ => hread))
    fun _ _ _ => asksOnly_done _ _

section

include hget hput

/-- A look-up reads nothing but what it looks up. -/
theorem asksOnly_lookUp_of_read (rate : τ) {space name : Value} (hread : P (.read space name)) :
    (lookUp rate space name).AsksOnly P := by
  refine behaves_bind (asksOnly_done _ _) fun _ _ key => ?_
  refine behaves_bind (behaves_request fun _ _ => hget key) fun _ _ cached => ?_
  cases cached with
  | some secret =>
    exact behaves_bind ((asksRoutine_count rfl).imp hroutine) fun _ _ _ => asksOnly_done _ _
  | none =>
    refine behaves_bind (asksOnly_readThrough hroutine hsleep rate hread) fun _ _ found => ?_
    cases found with
    | none => exact asksOnly_done _ _
    | some raw => exact asksOnly_takeIn hroutine hput raw

end

include hput hwrites

theorem asksOnly_write (rate : τ) (operation : Operation) (secret : Secret)
    {call : Task τ (Option WireSecret)} (hcall : call.AsksOnly P) :
    (write rate operation secret call).AsksOnly P := by
  refine behaves_bind (behaves_request fun _ _ => hroutine _ trivial) fun _ _ start => ?_
  refine behaves_bind ?_ fun _ _ raw =>
    asksOnly_concludeWrite hroutine hwrites hput operation secret raw
  exact keeps_always (keeps_recover (asksOnly_spaced hroutine hsleep rate hcall) fun _ _ fault =>
    asksOnly_writeFailure hroutine hwrites operation secret fault) fun _ _ =>
    (asksRoutine_measureSince _ (by cases operation <;> rfl)).imp hroutine

theorem asksOnly_create (rate : τ) (secret : Secret)
    (hcreate : ∀ body, secret.toWire = .ok body →
      P (.create secret.space (WireSecret.unversioned body))) :
    (create rate secret).AsksOnly P := by
  refine keeps_bind (P := fun _ body => secret.toWire = .ok body)
    (keeps_checked fun body hbody _ _ => hbody) fun _ _ body hbody => ?_
  exact asksOnly_write hroutine hsleep hput hwrites rate _ _
    (behaves_request fun _ _ => hcreate body hbody)

theorem asksOnly_update (rate : τ) (secret : Secret)
    (hreplace : ∀ body, secret.toWire = .ok body → P (.replace secret.space secret.name body)) :
    (update rate secret).AsksOnly P := by
  refine asksOnly_write hroutine hsleep hput hwrites rate _ _ ?_
  refine keeps_bind (P := fun _ body => secret.toWire = .ok body)
    (keeps_checked fun body hbody _ _ => hbody) fun _ _ body hbody => ?_
  exact behaves_request fun _ _ => hreplace body hbody

end

/-! ## Synchronising -/

/-- Does what was decided about the mirror and emits an event about it, as a program of the
operator. -/
def perform (rate : τ) (places : Sync.Places) (decision : Decision) : Task τ Unit :=
  (Sync.execute places decision).interpret (collaborate rate places.targetReference)

/-- A synchronisation, as what it asks of the API, the cache and Kubernetes events: two look-ups,
the decision, and what is done about it. -/
theorem sync_eq (rate : τ) (places : Sync.Places) :
    sync rate places = (do
      match ← lookUp rate places.space places.source with
      | none => checked (decide none none places.target)
      | some source => do
        let target ← lookUp rate places.space places.target
        let decision ← checked (decide (some source) target places.target)
        perform rate places decision
        return decision) := by
  unfold sync Sync.sync
  rw [interpret_bind, Sync.lookUp, interpret_request]
  congr 1
  funext source?
  cases source? with
  | none => rfl
  | some source =>
    dsimp only
    rw [interpret_bind, Sync.lookUp, interpret_request]
    congr 1
    funext target?
    rw [interpret_bind]
    congr 1
    funext decision
    rw [interpret_bind]
    rfl

theorem perform_create (rate : τ) (secret : Secret) :
    perform rate {} (.create secret) = (do
      let _ ← create rate secret
      ask (.post {
        object := Sync.Places.targetReference {}
        reason := .text Names.createdReason
        message := .text s!"Secret {Sync.Places.targetPath {}} created" })) := by
  unfold perform Sync.execute
  rw [interpret_bind, interpret_request]
  rfl

theorem perform_update (rate : τ) (secret : Secret) :
    perform rate {} (.update secret) = (do
      let _ ← update rate secret
      ask (.post {
        object := Sync.Places.targetReference {}
        reason := .text Names.updatedReason
        message := .text s!"Secret {Sync.Places.targetPath {}} updated" })) := by
  unfold perform Sync.execute
  rw [interpret_bind, interpret_request]
  rfl

section

variable {P : Request τ → Prop} (hroutine : ∀ q, Request.IsRoutine q → P q)
  (hsleep : ∀ time, P (.sleep time)) (hget : ∀ key, P (.cacheGet key)) (hput : ∀ s, P (.cachePut s))
  (hwrites : ∀ q, Request.CountsWrite q → P q) (hpost : ∀ e, P (.post e))
  (hread : ∀ space name, P (.read space name)) (hcreate : ∀ space body, P (.create space body))
  (hreplace : ∀ space name body, P (.replace space name body))

include hroutine hsleep hput hwrites hpost hcreate hreplace

theorem asksOnly_perform (rate : τ) (decision : Decision) :
    (perform rate {} decision).AsksOnly P := by
  cases decision with
  | noOp why => exact asksOnly_done _ _
  | create secret =>
    rw [perform_create]
    exact behaves_bind (asksOnly_create hroutine hsleep hput hwrites rate secret fun _ _ =>
      hcreate _ _) fun _ _ _ => behaves_request fun _ _ => hpost _
  | update secret =>
    rw [perform_update]
    exact behaves_bind (asksOnly_update hroutine hsleep hput hwrites rate secret fun _ _ =>
      hreplace _ _ _) fun _ _ _ => behaves_request fun _ _ => hpost _

include hget hread

/-- A synchronisation asks nothing but the routine around its calls, the calls, and its events. -/
theorem asksOnly_sync (rate : τ) : (sync rate {}).AsksOnly P := by
  have hlookUp : ∀ space name, (lookUp rate space name).AsksOnly P := fun space name =>
    asksOnly_lookUp_of_read hroutine hsleep hget hput rate (hread space name)
  rw [sync_eq]
  refine behaves_bind (hlookUp _ _) fun _ _ source? => ?_
  cases source? with
  | none => exact asksOnly_done _ _
  | some source =>
    refine behaves_bind (hlookUp _ _) fun _ _ target => ?_
    refine behaves_bind (asksOnly_done _ _) fun _ _ decision => ?_
    exact behaves_bind (asksOnly_perform hroutine hsleep hput hwrites hpost hcreate hreplace rate
      decision) fun _ _ _ => asksOnly_done _ _

end

end SecretMirror.Operator
