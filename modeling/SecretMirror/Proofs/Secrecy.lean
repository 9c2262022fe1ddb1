import SecretMirror.Proofs.ExactTime
import SecretMirror.Proofs.Secrecy.Lockstep

/-!
# The bytes of secrets stay hidden

A reconciliation shows nothing of the bytes of the secrets that it copies, except whether the two
that it has looked up have equal data.  Let two clusters be equal but for the data that is cached
and stored, and let their clocks and the faults of their calls follow the same script.  Then
reconciliations in the two log the same lines, post the same events, change the metrics in the same
way, call the API in the same order with the same arguments up to the data section of what is
written, and end with the same action and reason or the same fault (`reconcile_conceals_data`).

A `Script` sets the clock and plans faults before each request anew, so the readings of the clock
and the failures of calls are arbitrary; what they may not do is depend on the data.
-/

namespace SecretMirror.Secrecy

open Operator

variable {τ : Type}

/-! ## Scripts -/

/-- What becomes of a cluster by itself: what its clock shows, how long calls take and what they
meet. -/
structure Conditions (τ : Type) where
  clock : τ
  latency : τ
  disturbances : Cluster.Disturbances τ
  answersWrites : Bool
  eventFault : Option (Fault τ)
  clientFaults : Cluster.ClientSource → Option (Fault τ)

/-- The present conditions in a cluster. -/
def conditionsIn (c : Cluster τ) : Conditions τ where
  clock := c.clock
  latency := c.latency
  disturbances := c.disturbances
  answersWrites := c.answersWrites
  eventFault := c.eventFault
  clientFaults := c.clientFaults

/-- The cluster under other conditions. -/
def under (w : Conditions τ) (c : Cluster τ) : Cluster τ :=
  { c with
    clock := w.clock
    latency := w.latency
    disturbances := w.disturbances
    answersWrites := w.answersWrites
    eventFault := w.eventFault
    clientFaults := w.clientFaults }

/-- The conditions at each request, given its number and the conditions that the one before has
left.  A script cannot look at the data. -/
abbrev Script (τ : Type) := Nat → Conditions τ → Conditions τ

variable [Time τ]

/-- Answers a request as the cluster does under the conditions that the script makes. -/
def handle (script : Script τ) (timing : Resync.Timing τ) (q : (requests τ).Request) :
    Nat × Cluster τ → Except (Fault τ) ((requests τ).Answer q) × (Nat × Cluster τ)
  | (n, c) =>
    let (answer, c) := Cluster.handle timing q (under (script n (conditionsIn c)) c)
    (answer, (n + 1, c))

/-- The result of a reconciliation in a cluster and what it makes of the cluster. -/
def outcome (script : Script τ) (tuning : Tuning τ) (trigger : Value) (c : Cluster τ) :
    Except (Fault τ) Decision × Cluster τ :=
  let (result, (_, c)) := (reconcile tuning trigger).run (handle script tuning.timing) (0, c)
  (result, c)

/-- What the reconciliation asks, with the answers. -/
def exchanges (script : Script τ) (tuning : Tuning τ) (trigger : Value) (c : Cluster τ) :
    Set (Exchange (requests τ) (Fault τ)) :=
  {x | x ∈ (reconcile tuning trigger).trace (handle script tuning.timing) (0, c)}

theorem run_quiet {α : Type} (timing : Resync.Timing τ) (p : Task τ α) (n : Nat) (c : Cluster τ) :
    ∃ m, p.run (handle (fun _ w => w) timing) (n, c) =
      ((p.run (Cluster.handle timing) c).1, m, (p.run (Cluster.handle timing) c).2) := by
  induction p generalizing n c with
  | done r => exact ⟨n, rfl⟩
  | ask q next ih =>
    rw [Program.run_ask, Program.run_ask]
    exact ih _ (n + 1) _

/-- A script that changes nothing leaves a cluster to itself. -/
theorem outcome_quiet (tuning : Tuning τ) (trigger : Value) (c : Cluster τ) :
    outcome (fun _ w => w) tuning trigger c =
      (reconcile tuning trigger).run (Cluster.handle tuning.timing) c := by
  obtain ⟨m, hm⟩ := run_quiet tuning.timing (reconcile tuning trigger) 0 c
  unfold outcome
  rw [hm]

/-! ## What can be seen -/

/-- Nothing but the data of what was written tells two outcomes apart: not the result, the lines,
the events, the metrics or the calls. -/
structure LooksLike (o o' : Except (Fault τ) Decision × Cluster τ) : Prop where
  result : Agree (fun d d' => d.action = d'.action ∧ d.reason = d'.reason) o.1 o'.1
  lines : o.2.record.lines = o'.2.record.lines
  events : o.2.record.events = o'.2.record.events
  metrics : o.2.metrics = o'.2.metrics
  calls : List.Forall₂ Cluster.Call.Alike o.2.record.calls o'.2.record.calls

omit [Time τ] in
theorem looksLike_of_alike {r r' : Except (Fault τ) Decision} (hr : Agree Decision.Alike r r')
    {c c' : Cluster τ} (hc : c.Alike c') : LooksLike (r, c) (r', c') := by
  obtain ⟨cache, server, calls, -, -, hcalls, rfl⟩ := hc
  exact ⟨hr.imp fun d d' hd => ⟨hd.action_eq, hd.reason_eq⟩, rfl, rfl, rfl, hcalls⟩

/-! ## Two clusters under one script -/

/-- As many requests were made, and the clusters are equal but for data. -/
def AlikeAtStep (s s' : Nat × Cluster τ) : Prop := s.1 = s'.1 ∧ s.2.Alike s'.2

omit [Time τ] in
theorem alike_under {c c' : Cluster τ} (h : c.Alike c') (change : Conditions τ → Conditions τ) :
    (under (change (conditionsIn c)) c).Alike (under (change (conditionsIn c')) c') := by
  obtain ⟨cache, server, calls, hcache, hserver, hcalls, rfl⟩ := h
  exact ⟨cache, server, calls, hcache, hserver, hcalls, rfl⟩

/-- The script makes the same conditions in both clusters, so alike requests are answered alike. -/
theorem alike_handle (script : Script τ) (timing : Resync.Timing τ)
    {q q' : (requests τ).Request} (hq : q.Alike q') {s s' : Nat × Cluster τ}
    (hs : AlikeAtStep s s') :
    Exchange.Alike ⟨q, (handle script timing q s).1⟩ ⟨q', (handle script timing q' s').1⟩ ∧
      AlikeAtStep (handle script timing q s).2 (handle script timing q' s').2 := by
  obtain ⟨n, c⟩ := s
  obtain ⟨_, c'⟩ := s'
  obtain ⟨rfl, hc⟩ := hs
  obtain ⟨hanswer, hlater⟩ := (alike_under hc (script n)).handle timing hq
  exact ⟨hanswer, rfl, hlater⟩

/-- In two clusters that are equal but for data, and whose two secrets have equal data in one
exactly if they have in the other, reconciliations look alike.  The clock and the faults follow any
script, so nothing that somebody can see or time tells one from the other. -/
theorem reconcile_conceals_data {c c' : Cluster τ} (halike : c.Alike c') (script : Script τ)
    (tuning : Tuning τ) (trigger : Value)
    (hdrift : SameDrift (exchanges script tuning trigger c) (exchanges script tuning trigger c')) :
    LooksLike (outcome script tuning trigger c) (outcome script tuning trigger c') := by
  have hstart : AlikeAtStep (0, c) (0, c') := ⟨rfl, halike⟩
  obtain ⟨hresult, -, hfinal⟩ := (Lockstep.inStep_reconcile hdrift tuning trigger).run
    (R := AlikeAtStep) (fun hs hq => alike_handle script tuning.timing hq hs) hstart
    fun x hx y hy hxy => ⟨hxy, hx, hy⟩
  exact looksLike_of_alike hresult hfinal

/-! ## An example -/

namespace Example

def stored (name : String) (annotations : Value) (datum : String) : WireSecret where
  metadata := {
    name := .text name
    space := .text Names.configNamespace
    annotations := annotations
    resourceVersion := .text "1" }
  data := .object [("key", .text datum)]

/-- A canonical secret and a mirror of the operator, with these data. -/
def objects (source target : String) (key : Key) : Option WireSecret :=
  if key = .source then some (stored Names.source .null source)
  else if key = .target then
    some (stored Names.target (.object [(Names.managedBy, .text Names.manager)]) target)
  else none

/-- A cluster with these two secrets, where nothing is cached. -/
def cluster (source target : String) : Cluster ℚ :=
  { Cluster.new 100 60 with server := { objects := objects source target, version := 1 } }

/-- Every request finds the clock one second later. -/
def script : Script ℚ := fun _ w => { w with clock := w.clock + 1 }

def tuning : Tuning ℚ := ⟨8, 5, ⟨300, 30⟩⟩

/-- What was found has the data that belong to its key. -/
def findsOnly (source target : Data) (xs : List (Exchange (requests ℚ) (Fault ℚ))) : Bool :=
  xs.all fun x => match finding? x with
    | some (key, s) => s.data == some (if key = .source then source else target)
    | none => true

theorem alike_stored (name : String) (annotations : Value) {a a' : String} {u u' : Bytes}
    (ha : (Value.text a).datum = .ok u) (ha' : (Value.text a').datum = .ok u') :
    (stored name annotations a).Alike (stored name annotations a') := by
  have hsection : ∀ {d : String} {x : Bytes}, (Value.text d).datum = .ok x →
      (Value.object [("key", .text d)]).dataSection = .ok [("key", x)] := fun hd => by
    show Data.ofFields [("key", .text _)] = _
    rw [Data.ofFields, hd]
    rfl
  refine ⟨.object [("key", .text a')], ?_, rfl⟩
  show Agree _ (Value.object [("key", .text a)]).dataSection _
  rw [hsection ha, hsection ha']
  exact .ok trivial

theorem alike_cluster {a b a' b' : String} {u v u' v' : Bytes}
    (ha : (Value.text a).datum = .ok u) (hb : (Value.text b).datum = .ok v)
    (ha' : (Value.text a').datum = .ok u') (hb' : (Value.text b').datum = .ok v') :
    (cluster a b).Alike (cluster a' b') := by
  refine ⟨{ ttl := 60 }, { objects := objects a' b', version := 1 }, [], ⟨rfl, .nil⟩,
    ⟨rfl, fun key => ?_⟩, .nil, rfl⟩
  show Option.Rel WireSecret.Alike (objects a b key) (objects a' b' key)
  unfold objects
  split
  · exact .some (alike_stored _ _ ha ha')
  · split
    · exact .some (alike_stored _ _ hb hb')
    · exact .none

theorem sameDrift_of_findsOnly {a b a' b' : Data}
    {xs ys : List (Exchange (requests ℚ) (Fault ℚ))} (hxs : findsOnly a b xs = true)
    (hys : findsOnly a' b' ys = true)
    (hequal : Data.equal (some b) (some a) = Data.equal (some b') (some a')) :
    SameDrift {x | x ∈ xs} {y | y ∈ ys} := by
  have hdata : ∀ {u v : Data} {zs : List (Exchange (requests ℚ) (Fault ℚ))} {key : Key}
      {s : Secret}, findsOnly u v zs = true → Found {z | z ∈ zs} key s →
        s.data = some (if key = .source then u else v) := by
    rintro u v zs key s hzs ⟨x, hx, hfinding⟩
    have hfinds := List.all_eq_true.1 hzs x hx
    rw [hfinding] at hfinds
    exact beq_iff_eq.1 hfinds
  intro s t s' t' hs ht hs' ht'
  have hne : Key.target ≠ Key.source := by decide
  rw [hdata hxs hs, hdata hxs ht, hdata hys hs', hdata hys ht', if_pos rfl, if_neg hne,
    if_pos rfl, if_neg hne]
  exact hequal

end Example

set_option maxRecDepth 10000 in
/-- Two mirrors with outdated data are updated without a visible difference. -/
theorem reconcile_conceals_data_on_update :
    (Example.cluster "AQ==" "Ag==").Alike (Example.cluster "Aw==" "BA==") ∧
      SameDrift (exchanges Example.script Example.tuning (.text "event")
          (Example.cluster "AQ==" "Ag=="))
        (exchanges Example.script Example.tuning (.text "event") (Example.cluster "Aw==" "BA==")) ∧
      LooksLike
        (outcome Example.script Example.tuning (.text "event") (Example.cluster "AQ==" "Ag=="))
        (outcome Example.script Example.tuning (.text "event") (Example.cluster "Aw==" "BA==")) ∧
      (outcome Example.script Example.tuning (.text "event")
        (Example.cluster "AQ==" "Ag==")).2.record.calls.length = 3 := by
  have halike : (Example.cluster "AQ==" "Ag==").Alike (Example.cluster "Aw==" "BA==") :=
    Example.alike_cluster (u := [1]) (v := [2]) rfl rfl rfl rfl
  have hfinds : Example.findsOnly [("key", [1])] [("key", [2])] ((reconcile Example.tuning
      (.text "event")).trace (handle Example.script Example.tuning.timing)
        (0, Example.cluster "AQ==" "Ag==")) = true := by
    with_unfolding_all decide +kernel
  have hfinds' : Example.findsOnly [("key", [3])] [("key", [4])] ((reconcile Example.tuning
      (.text "event")).trace (handle Example.script Example.tuning.timing)
        (0, Example.cluster "Aw==" "BA==")) = true := by
    with_unfolding_all decide +kernel
  have hdrift := Example.sameDrift_of_findsOnly hfinds hfinds' rfl
  refine ⟨halike, hdrift, ?_, ?_⟩
  · exact reconcile_conceals_data halike Example.script Example.tuning (.text "event") hdrift
  · with_unfolding_all decide +kernel

end SecretMirror.Secrecy
