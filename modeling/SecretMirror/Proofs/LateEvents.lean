import SecretMirror.Proofs.ExactTime
import SecretMirror.Proofs.LateEvents.Activities

/-!
# The mirror and late watch events

While the operator runs, the owner of the canonical secret stores one version after another, and
watch events about these versions are delivered in order but at any time later.  `Unfolds` says what
may happen around the mirror, and records the events that were delivered and the writes of the
mirror that were sent.

A watch event puts what it shows into the cache, whether that is newer or older than what was cached
before.  So an event that comes late may bring an old version back (`late_event_moves_back`).
Nothing else does (`writes_keep_up`): between two writes of the mirror, the second of which carries
the older version, an event that shows the older version was delivered.  And no write carries an
older version than an event has shown before.
-/

namespace SecretMirror

open Operator
open Program hiding bind ask

namespace History

variable {τ : Type} [Time τ] {h h' : History τ} {ds : List (Occurrence Sent)}
  {log : List (Occurrence Nat)}

/-- From the start on, these deliveries and writes have led to the second state.  The operator does
one thing after another, but others act at any moment, and a delivery comes only after its version
was stored. -/
inductive Unfolds (tuning : Tuning τ) (start : History τ) : List (Occurrence Sent) → History τ →
    Prop where
  | start : Unfolds tuning start [] start
  /-- Others act. -/
  | interferes {ds : List (Occurrence Sent)} {h h' : History τ}
    (hbefore : Unfolds tuning start ds h) (hinterferes : h.Interferes h') :
    Unfolds tuning start ds h'
  /-- Something runs by the schedule, such as what is due on a tick. -/
  | runs {ds : List (Occurrence Sent)} {h h' : History τ} {α : Type}
    {p : Program (Resync.requests τ) (Fault τ) α} {xs : List (Exchange (requests τ) (Fault τ))}
    {r : Except (Fault τ) α} (hbefore : Unfolds tuning start ds h)
    (hruns : (p.interpret (embed tuning)).InterferedRun (handle tuning.timing)
      Interferes h xs r h') :
    Unfolds tuning start (ds ++ occurrencesOf xs) h'
  /-- An event is delivered that shows a version of the canonical secret, after all events about
  earlier versions. -/
  | delivers {ds : List (Occurrence Sent)} {h h' : History τ} {n : Nat} {w : WireSecret}
    {eventType body name space : Value} {xs : List (Exchange (requests τ) (Fault τ))}
    {r : Except (Fault τ) Unit} (hbefore : Unfolds tuning start ds h)
    (hversion : h.versions[n]? = some w) (horder : ∀ m, Occurrence.delivered m ∈ ds → m ≤ n)
    (hdeleted : eventType.text? ≠ some "DELETED") (hbody : body.Shows w)
    (hruns : (handleEvent tuning eventType body name space).InterferedRun (handle tuning.timing)
      Interferes h xs r h') :
    Unfolds tuning start (ds ++ .delivered n :: occurrencesOf xs) h'
  /-- An event is delivered that shows no canonical secret. -/
  | informs {ds : List (Occurrence Sent)} {h h' : History τ} {eventType body name space : Value}
    {xs : List (Exchange (requests τ) (Fault τ))} {r : Except (Fault τ) Unit}
    (hbefore : Unfolds tuning start ds h)
    (hother : eventType.text? = some "DELETED" ∨
      ∀ s, Secret.ofBody body = .ok s → s.key ≠ .ok .source)
    (hruns : (handleEvent tuning eventType body name space).InterferedRun (handle tuning.timing)
      Interferes h xs r h') :
    Unfolds tuning start (ds ++ occurrencesOf xs) h'

variable (tuning : Tuning τ)

/-! ## Taking an event in -/

theorem occurrencesOf_observe {eventType body name space : Value}
    {xs : List (Exchange (requests τ) (Fault τ))} {r : Except (Fault τ) Unit}
    (hrun : (observe eventType body name space).InterferedRun (handle tuning.timing)
      Interferes h xs r h') :
    occurrencesOf xs = [] := by
  have hharmless : (observe (τ := τ) eventType body name space).AsksOnly Request.IsHarmless :=
    asksOnly_observe eventType body name space trivial fun _ _ _ => trivial
  obtain ⟨-, hasked⟩ := hrun.relates (R := fun _ _ => True) hharmless (fun _ => trivial)
    (fun _ _ => trivial) (fun _ _ _ => trivial) (fun _ => trivial)
  exact occurrencesOf_eq_nil hasked

theorem advances_observe {eventType body name space : Value}
    {xs : List (Exchange (requests τ) (Fault τ))} {r : Except (Fault τ) Unit}
    (hother : eventType.text? = some "DELETED" ∨
      ∀ s, Secret.ofBody body = .ok s → s.key ≠ .ok .source)
    (hrun : (observe eventType body name space).InterferedRun (handle tuning.timing)
      Interferes h xs r h') :
    h ≤ h' := by
  let P : Operator.Request τ → Prop := fun q =>
    q.IsFree ∨ ∃ s, q = .cachePut s ∧ s.key ≠ .ok .source
  have hasks : (observe eventType body name space).AsksOnly P := by
    refine asksOnly_observe eventType body name space (.inl trivial) fun hdeleted s hs => ?_
    exact .inr ⟨s, rfl, hother.resolve_left hdeleted s hs⟩
  have hstep : ∀ q (l : History τ), P q → l ≤ (l.handle tuning.timing q).2 := by
    rintro q l (hfree | ⟨s, rfl, hkey⟩)
    · exact advances_of_isFree tuning.timing hfree l
    · exact advances_cachePut tuning.timing hkey l
  obtain ⟨hle, -⟩ := hrun.relates (R := (· ≤ ·)) hasks le_refl le_trans hstep Interferes.advances
  exact hle

/-- What an event shows of the canonical secret may be written from then on, if it can be read. -/
theorem accounts_observe {n : Nat} {w : WireSecret} {eventType body name space : Value}
    {xs : List (Exchange (requests τ) (Fault τ))} {r : Except (Fault τ) Unit}
    (ha : Accounts h ds log) (hversion : h.versions[n]? = some w)
    (horder : ∀ m, Occurrence.delivered m ∈ ds → m ≤ n)
    (hdeleted : eventType.text? ≠ some "DELETED") (hbody : body.Shows w)
    (hrun : (observe eventType body name space).InterferedRun (handle tuning.timing)
      Interferes h xs r h') :
    ∃ log', Accounts h' (ds ++ [.delivered n]) log' := by
  have hobserve : observe eventType body name space =
      (checked (Secret.ofWire w) >>= fun s => ask (.cachePut s) : Task τ Unit) := by
    rw [observe, if_neg hdeleted, Secret.ofBody_of_shows hbody]
  rw [hobserve] at hrun
  obtain ⟨_, a, h₁, _, hchecked, hput, -⟩ := hrun.of_bind
  obtain ⟨rfl, -, hle₁⟩ := of_interferedRun_done tuning.timing hchecked
  refine ⟨log ++ [.delivered n], ?_⟩
  cases hread : Secret.ofWire w with
  | error reason =>
    -- nothing is cached, and what was admitted stays admitted
    rw [hread] at hput
    obtain ⟨-, -, hle₂⟩ := of_interferedRun_done tuning.timing hput
    have hillegible : ∀ s, ¬ Copies h.versions n s := by
      rintro s ⟨w', hw', hread'⟩
      rw [hversion] at hw'
      cases hw'
      rw [hread] at hread'
      cases hread'
    have hdelivered : Accounts h (ds ++ [.delivered n]) (log ++ [.delivered n]) := by
      refine ha.delivers (List.getElem?_eq_some_iff.1 hversion).1 List.prefix_rfl ha.sound ?_
      intro e he
      obtain ⟨k, hcopies, hadmits⟩ := ha.cached e he
      exact ⟨k, hcopies, hadmits.illegible hillegible⟩
    exact hdelivered.advances (hle₁.trans hle₂)
  | ok s =>
    -- what is cached is now a copy of the version that was shown
    rw [hread] at hput
    have hkey : s.key = .ok .source := by
      have habout : w.IsAbout .source := ha.sound.canonical w (List.mem_of_getElem? hversion)
      obtain ⟨_, _, _, _, -, -, -, -, rfl⟩ := Secret.ofWire_eq_ok_iff.1 hread
      exact habout
    obtain ⟨-, hlater, hsound, honly⟩ :=
      of_interferedRun_cachePut tuning.timing (hle₁.sound ha.sound) hkey hput
    have hversions : h.versions <+: h'.versions := hle₁.versions.trans hlater
    refine ha.delivers (List.getElem?_eq_some_iff.1 hversion).1 hversions hsound fun e he => ?_
    rw [honly e he]
    refine ⟨n, ⟨w, getElem?_later hversions hversion, hread⟩, ?_⟩
    exact .of_delivered fun m hm => horder m (ha.mem_of_delivered hm)

/-- Once an event has been taken in, its handling sustains the accounts. -/
theorem accounted_handleEvent {eventType body name space : Value}
    {xs : List (Exchange (requests τ) (Fault τ))} {r : Except (Fault τ) Unit}
    (hobserved : ∀ ys a h₁, (observe eventType body name space).InterferedRun (handle tuning.timing)
      Interferes h ys a h₁ → ∃ log, Accounts h₁ ds log)
    (hrun : (handleEvent tuning eventType body name space).InterferedRun (handle tuning.timing)
      Interferes h xs r h') :
    Accounted ds xs h' := by
  obtain ⟨ys, a, h₁, zs, hobserve, hrest, rfl⟩ := hrun.of_bind
  have ha : Accounted ds [] h₁ := accounted_nil_iff.2 (hobserved ys a h₁ hobserve)
  have hsustained : Accounted ds ([] ++ zs) h' := by
    cases a with
    | error fault =>
      exact Sustains.done (fun _ _ _ ha hst => ha.interferes hst) (.error fault) ha hrest
    | ok _ => exact sustains_embed tuning.timing tuning (Resync.run _ _) ha hrest
  obtain ⟨log, hlog⟩ := hsustained
  refine ⟨log, ?_⟩
  rw [occurrencesOf_append, occurrencesOf_observe tuning hobserve]
  exact hlog

/-! ## Unfolding -/

/-- Accounts can be given of whatever happens.  This is the induction on `Unfolds`, with one case
for each thing that the operator does. -/
theorem Unfolds.exists_accounts {start : History τ} (hstart : start.IsSound)
    (hcold : start.cached? .source = none) (hunfolds : Unfolds tuning start ds h) :
    ∃ log, Accounts h ds log := by
  induction hunfolds with
  | start =>
    refine ⟨[], hstart, .nil, ⟨nofun, nofun⟩, fun e he => ?_⟩
    rw [hcold] at he
    cases he
  | interferes _ hinterferes ih =>
    obtain ⟨log, ha⟩ := ih
    exact ⟨log, ha.advances hinterferes.advances⟩
  -- What runs by the schedule and what follows an event write only what they have found.
  | runs _ hruns ih =>
    exact sustains_embed tuning.timing tuning _ (accounted_nil_iff.2 ih) hruns
  | @delivers ds h h' n w eventType body name space xs r
      _ hversion horder hdeleted hbody hruns ih =>
    obtain ⟨log, ha⟩ := ih
    have haccounted : Accounted (ds ++ [.delivered n]) xs h' :=
      accounted_handleEvent tuning (fun ys a h₁ hobserve =>
        accounts_observe tuning ha hversion horder hdeleted hbody hobserve) hruns
    rw [List.append_cons]
    exact haccounted
  | @informs ds h h' eventType body name space xs r _ hother hruns ih =>
    obtain ⟨log, ha⟩ := ih
    exact accounted_handleEvent tuning (fun ys a h₁ hobserve =>
      ⟨log, ha.advances (advances_observe tuning hother hobserve)⟩) hruns

/-- The versions that are written keep up with those that were written and shown before.  If a
version was written before an older one, then in between an event has shown the older one.  And what
is written is never older than what an event has shown, if that can be read. -/
theorem writes_keep_up {start : History τ} (hstart : start.IsSound)
    (hcold : start.cached? .source = none) (hunfolds : Unfolds tuning start ds h) :
    ∃ log, List.Forall₂ (Occurrence.Numbered h.versions) ds log ∧
      ∀ j m : Nat, log[j]? = some (.wrote m) →
        (∀ i n : Nat, i < j → log[i]? = some (.wrote n) →
          n ≤ m ∨ ∃ l : Nat, i < l ∧ l < j ∧ log[l]? = some (.delivered m)) ∧
        ∀ (i n : Nat) (s : Secret), i < j → log[i]? = some (.delivered n) →
          Copies h.versions n s → n ≤ m := by
  obtain ⟨log, ha⟩ := hunfolds.exists_accounts tuning hstart hcold
  refine ⟨log, ha.numbered, fun j m hj => ?_⟩
  have hadmits : Admits h.versions (log.take j) m := ha.orderly.wrote j m hj
  have htake : ∀ {i : Nat} {d : Occurrence Nat}, i < j → log[i]? = some d →
      (log.take j)[i]? = some d := by
    intro i d hij hi
    rw [List.getElem?_take, if_pos hij]
    exact hi
  constructor
  · intro i n hij hi
    refine (hadmits.wrote i n (htake hij hi)).imp_right ?_
    rintro ⟨l, hil, hl⟩
    rw [List.getElem?_take] at hl
    split at hl
    · next hlj => exact ⟨l, hil, hlj, hl⟩
    · cases hl
  · intro i n s hij hi hcopies
    exact hadmits.delivered n s (List.mem_of_getElem? (htake hij hi)) hcopies

/-! ## A late event -/

/-- A later version of the canonical secret, with other data. -/
def renewed : WireSecret :=
  { Example.canonical with
    metadata := { Example.canonical.metadata with resourceVersion := .text "2" }
    data := .object [("key", .text "Ag==")] }

/-- Two versions of the canonical secret have been stored, nothing is cached, and a run is due. -/
def lagging : History ℚ where
  cluster := { Cluster.new 1000 30 with
    schedule := { lastRun := 700 }
    server := {
      objects := fun key => if key = .source then some renewed else none
      version := 2 } }
  versions := [Example.canonical, renewed]

theorem isSound_lagging : lagging.IsSound where
  canonical w hw := by
    simp only [lagging, List.mem_cons, List.not_mem_nil, or_false] at hw
    rcases hw with rfl | rfl
    · rfl
    · rfl
  current w hw := by
    have hstored : some renewed = some w := hw
    cases hstored
    rfl
  stored key w hw := by
    simp only [stored?, lagging] at hw
    split at hw
    · next hkey =>
      cases hw
      rw [hkey]
      rfl
    · cases hw
  cached key e he := by
    have hnone : none = some e := he
    cases hnone

/-- How the operator is tuned there. -/
def tuned : Tuning ℚ := ⟨8, 5, ⟨300, 30⟩⟩

/-- The state after the run that was due. -/
def caughtUp : History ℚ := ((tick tuned).run (handle tuned.timing) lagging).2

/-- The event about the first version, which comes only now. -/
def lateEvent : Task ℚ Unit :=
  handleEvent tuned (.text "ADDED") Example.canonical.toValue (.text Names.source)
    (.text Names.configNamespace)

theorem versions_run {α : Type} (timing : Resync.Timing τ) (p : Task τ α) (h : History τ) :
    (p.run (handle timing) h).2.versions = h.versions := by
  induction p generalizing h with
  | done r => rfl
  | ask q next ih => exact ih _ _

omit [Time τ] in
theorem exists_wrote {xs : List (Exchange (requests τ) (Fault τ))} {data : Data}
    (hsent : (xs.filterMap sent?).map Sent.taken? = [some data]) :
    ∃ sent, occurrencesOf xs = [.wrote sent] ∧ sent.taken? = some data := by
  obtain ⟨sent, hxs, htaken⟩ := List.map_eq_singleton_iff.1 hsent
  refine ⟨sent, ?_, htaken⟩
  rw [occurrencesOf, hxs, List.map_singleton]

set_option maxRecDepth 10000 in
/-- The run brings the second version, as it was read. -/
theorem exists_wrote_new : ∃ sent,
    occurrencesOf ((tick tuned).trace (handle tuned.timing) lagging) = [.wrote sent] ∧
      sent.taken? = some [("key", [2])] :=
  exists_wrote (by with_unfolding_all decide +kernel)

set_option maxRecDepth 10000 in
/-- The event brings the first version, as it was shown. -/
theorem exists_wrote_old : ∃ sent,
    occurrencesOf (lateEvent.trace (handle tuned.timing) caughtUp) = [.wrote sent] ∧
      sent.taken? = some [("key", [1])] :=
  exists_wrote (by with_unfolding_all decide +kernel)

/-- The run comes first, and then the event about the version that is old by now. -/
theorem exists_unfolds_late : ∃ new old h,
    Unfolds tuned lagging [.wrote new, .delivered 0, .wrote old] h ∧
      h.versions = lagging.versions ∧
      new.taken? = some [("key", [2])] ∧ old.taken? = some [("key", [1])] := by
  obtain ⟨new, hnew, htaken⟩ := exists_wrote_new
  obtain ⟨old, hold, htaken'⟩ := exists_wrote_old
  have hversions : caughtUp.versions = lagging.versions := versions_run tuned.timing _ lagging
  have hcaughtUp : Unfolds tuned lagging [.wrote new] caughtUp := by
    have hruns := Unfolds.runs (p := Resync.tick tuned.timing)
      .start (interferedRun_run (tick tuned) lagging)
    rw [hnew] at hruns
    exact hruns
  have hlate := hcaughtUp.delivers (n := 0) (w := Example.canonical) (by rw [hversions]; rfl)
    (fun m hm => by cases List.mem_singleton.1 hm) (by simp [Value.text?])
    (WireSecret.shows_toValue _) (interferedRun_run lateEvent caughtUp)
  rw [hold] at hlate
  exact ⟨new, old, _, hlate, (versions_run tuned.timing lateEvent caughtUp).trans hversions, htaken,
    htaken'⟩

/-- Even so the first version is not written but after the event. -/
theorem writes_keep_up_when_late : lagging.IsSound ∧ lagging.cached? .source = none ∧
    ∃ new old h log, Unfolds tuned lagging [.wrote new, .delivered 0, .wrote old] h ∧
      List.Forall₂ (Occurrence.Numbered h.versions) [.wrote new, .delivered 0, .wrote old] log ∧
      ∀ j m : Nat, log[j]? = some (.wrote m) →
        (∀ i n : Nat, i < j → log[i]? = some (.wrote n) →
          n ≤ m ∨ ∃ l : Nat, i < l ∧ l < j ∧ log[l]? = some (.delivered m)) ∧
        ∀ (i n : Nat) (s : Secret), i < j → log[i]? = some (.delivered n) →
          Copies h.versions n s → n ≤ m := by
  obtain ⟨new, old, h, hunfolds, -⟩ := exists_unfolds_late
  obtain ⟨log, hnumbered, hlog⟩ := writes_keep_up tuned isSound_lagging rfl hunfolds
  exact ⟨isSound_lagging, rfl, new, old, h, log, hunfolds, hnumbered, hlog⟩

theorem taken_of_numbered {sent : Sent} {n : Nat}
    (hnumbered : (Occurrence.wrote sent).Numbered lagging.versions (.wrote n)) {data : Data}
    (htaken : sent.taken? = some data) :
    n = 0 ∧ data = [("key", [1])] ∨ n = 1 ∧ data = [("key", [2])] := by
  obtain ⟨⟩ | ⟨⟨w, hw, hread⟩, section?, hdata, hsection⟩ := hnumbered
  have hsame : section? = data := by
    unfold Sent.taken? at htaken
    rw [hsection] at htaken
    split at htaken
    · cases htaken
      rfl
    · cases htaken
  subst hsame
  match n with
  | 0 =>
    cases hw
    cases hread
    cases hdata
    exact .inl ⟨rfl, rfl⟩
  | 1 =>
    cases hw
    cases hread
    cases hdata
    exact .inr ⟨rfl, rfl⟩
  | n + 2 => cases hw

/-- The mirror was written with the data of the second version and then with the data of the first
one, both times successfully. -/
theorem late_event_moves_back : ∃ new old h,
    Unfolds tuned lagging [.wrote new, .delivered 0, .wrote old] h ∧
      new.isTaken = true ∧ old.isTaken = true ∧
      ∀ log, List.Forall₂ (Occurrence.Numbered h.versions)
          [.wrote new, .delivered 0, .wrote old] log →
        log = [.wrote 1, .delivered 0, .wrote 0] := by
  have hisTaken : ∀ {sent : Sent} {data : Data}, sent.taken? = some data → sent.isTaken = true := by
    intro sent data htaken
    unfold Sent.taken? at htaken
    split at htaken
    · next h => exact h
    · cases htaken
  obtain ⟨new, old, h, hunfolds, hversions, hnew, hold⟩ := exists_unfolds_late
  refine ⟨new, old, h, hunfolds, hisTaken hnew, hisTaken hold, fun log hlog => ?_⟩
  rw [hversions] at hlog
  obtain _ | ⟨hfirst, _ | ⟨hevent, _ | ⟨hsecond, _ | _⟩⟩⟩ := hlog
  cases hevent
  cases hfirst with
  | wrote hcopies hcarries =>
    cases hsecond with
    | wrote hcopies' hcarries' =>
      rcases taken_of_numbered (.wrote hcopies hcarries) hnew with ⟨-, hdata⟩ | ⟨rfl, -⟩
      · cases hdata
      rcases taken_of_numbered (.wrote hcopies' hcarries') hold with ⟨rfl, -⟩ | ⟨-, hdata⟩
      · rfl
      · cases hdata

end History

end SecretMirror
