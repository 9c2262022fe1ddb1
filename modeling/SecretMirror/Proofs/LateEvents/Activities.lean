import SecretMirror.Proofs.Convergence
import SecretMirror.Proofs.LateEvents.LookUp

/-!
# What the operator's activities do to the accounts

A reconciliation looks up the canonical secret once, and all that it writes afterwards carries the
data of the copy that it has found (`behaves_syncFound`).  So the accounts of a history can be
continued over a synchronisation (`sustains_sync`), and over whatever is built around
synchronisations: reconciliations, runs and ticks (`sustains_embed`).
-/

namespace SecretMirror

open Operator
open Program hiding bind ask

namespace History

variable {τ : Type} [Time τ] {h h' : History τ} (timing : Resync.Timing τ)

/-! ## Copying what was found -/

/-- What is asked for with a copy of the canonical secret in hand: other secrets are cached, and
other secrets are written, with the data of the copy. -/
def copying (s : Secret) : Contract (requests τ) (Fault τ) (History τ) where
  permits _
    | .cachePut other => other.key ≠ .ok .source
    | .create space body => body.metadata.space = space ∧
      Key.ofValues space body.metadata.name ≠ .ok .source ∧ body.Carries s
    | .replace space name body => body.metadata.space = space ∧ body.metadata.name = name ∧
      Key.ofValues space name ≠ .ok .source ∧ body.Carries s
    | _ => True
  expects _
    | .cacheGet key, a => ∀ found, a = .ok (some found) → found.key = .ok key
    | .read space name, a => ∀ w key, a = .ok w → Key.ofValues space name = .ok key → w.IsAbout key
    | .create space body, a => ∀ w, a = .ok (some w) →
      Key.ofValues w.metadata.space w.metadata.name = Key.ofValues space body.metadata.name
    | .replace space name _, a => ∀ w, a = .ok (some w) →
      Key.ofValues w.metadata.space w.metadata.name = Key.ofValues space name
    | _, _ => True

/-- A sound history answers as expected, and no copy of the canonical secret comes in. -/
theorem answers_copying {s : Secret} {q : (requests τ).Request} (hs : h.IsSound)
    (hq : (copying s).permits h q) :
    (h.handle timing q).2.IsSound ∧ h ≤ (h.handle timing q).2 ∧
      (copying s).expects (h.handle timing q).2 q (h.handle timing q).1 := by
  have hadvances : h ≤ (h.handle timing q).2 →
      (copying s).expects (h.handle timing q).2 q (h.handle timing q).1 →
      (h.handle timing q).2.IsSound ∧ h ≤ (h.handle timing q).2 ∧
        (copying s).expects (h.handle timing q).2 q (h.handle timing q).1 :=
    fun hle hexpected => ⟨hle.sound hs, hle, hexpected⟩
  cases q with
  | cacheGet key =>
    refine hadvances (advances_of_isFree timing (q := .cacheGet key) trivial h)
      fun found hfound => ?_
    obtain ⟨e, he, -, rfl⟩ := h.cluster.cache.find?_of_get key h.cluster.clock
      (Except.ok.inj hfound)
    exact hs.cached key e he
  | read space name =>
    refine hadvances (advances_of_isFree timing (q := .read space name) trivial h) ?_
    intro w key hw hkey
    obtain ⟨key', hkey', hstored⟩ := exists_key_of_read hw
    rw [hkey] at hkey'
    cases hkey'
    exact hs.stored key w hstored
  | create space body =>
    obtain ⟨hspace, hother, -⟩ := hq
    obtain ⟨hle, hanswer⟩ := advances_write
      { verb := .create, space := space, name := body.metadata.name, body := some body }
      (Cluster.refuses_create body) (files_create body) hspace rfl hother h
    exact hadvances hle hanswer
  | replace space name body =>
    obtain ⟨hspace, hname, hother, -⟩ := hq
    obtain ⟨hle, hanswer⟩ := advances_write
      { verb := .replace, space := space, name := name, body := some body }
      (Cluster.refuses_replace body) (files_replace body) hspace hname hother h
    exact hadvances hle hanswer
  | cachePut other => exact hadvances (advances_cachePut timing hq h) trivial
  | post event => exact hadvances (advances_post timing event h) trivial
  | _ => exact hadvances (advances_of_isFree timing (by trivial) h) trivial

omit [Time τ] in
theorem permitsCaching_copying (s : Secret) {holds : Secret → Prop}
    (hother : ∀ found, holds found → found.key ≠ .ok .source) :
    (copying s : Contract (requests τ) (Fault τ) (History τ)).PermitsCaching fun _ => holds where
  free _ q hq := by
    cases q with
    | cachePut other => exact hq.elim
    | create space body => exact hq.elim
    | replace space name body => exact hq.elim
    | _ => trivial
  put _ found hfound := hother found hfound
  mono _ hfound := hfound

/-- A mirror is not stored in the place of the canonical secret. -/
theorem key_ne_source_of_mirror {s r : Secret} (hmirror : s.mirror (.text Names.target) = .ok r) :
    r.key ≠ .ok .source := by
  intro hkey
  rw [Secret.key, (Cluster.isMirrorOf_of_mirror hmirror).name, Key.ofValues] at hkey
  split at hkey
  · next hname =>
    cases hname
    cases hkey
  · cases hkey
  · cases hkey

section Writes

variable {s secret : Secret} (hother : secret.key ≠ .ok .source) (hdata : secret.data = s.data)

include hother

theorem key_ne_source {raw : WireSecret} {stored : Secret}
    (hraw : Key.ofValues raw.metadata.space raw.metadata.name = secret.key)
    (hread : Secret.ofWire raw = .ok stored) : stored.key ≠ .ok .source := by
  obtain ⟨_, _, _, _, -, -, -, -, rfl⟩ := Secret.ofWire_eq_ok_iff.1 hread
  intro hkey
  exact hother (hraw.symm.trans hkey)

include hdata

theorem behaves_create (rate : τ) (h : History τ) :
    (Operator.create rate secret).Behaves (copying s) h := by
  have hc : (copying s : Contract (requests τ) (Fault τ) (History τ)).PermitsCaching
      fun _ found => found.key ≠ .ok .source := permitsCaching_copying s fun _ => id
  unfold Operator.create
  refine keeps_bind (P := fun _ body => secret.toWire = .ok body)
    (keeps_checked fun body hbody _ _ => hbody) fun _ _ body hbody => ?_
  obtain ⟨hname, hspace, -⟩ := Secret.of_toWire hbody
  have hkey : Key.ofValues secret.space (WireSecret.unversioned body).metadata.name = secret.key :=
    congrArg (Key.ofValues secret.space) hname
  refine hc.write (fun _ _ => keeps_request (fun _ _ => ?_) fun _ _ raw hraw _ _ => ?_) rate
  · have hcarries : body.Carries s := carries_of_toWire hdata hbody
    refine ⟨hspace, ?_, hcarries⟩
    rw [hkey]
    exact hother
  · refine ⟨fun w stored hw hread => ?_, fun _ => hother⟩
    subst hw
    exact key_ne_source hother ((hraw w rfl).trans hkey) hread

theorem behaves_update (rate : τ) (h : History τ) :
    (Operator.update rate secret).Behaves (copying s) h := by
  have hc : (copying s : Contract (requests τ) (Fault τ) (History τ)).PermitsCaching
      fun _ found => found.key ≠ .ok .source := permitsCaching_copying s fun _ => id
  unfold Operator.update
  refine hc.write (fun _ _ => ?_) rate
  refine keeps_bind (P := fun _ body => secret.toWire = .ok body)
    (keeps_checked fun body hbody _ _ => hbody) fun _ _ body hbody => ?_
  obtain ⟨hname, hspace, -⟩ := Secret.of_toWire hbody
  refine keeps_request (fun _ _ => ?_) fun _ _ raw hraw _ _ => ?_
  · exact ⟨hspace, hname, hother, carries_of_toWire hdata hbody⟩
  · refine ⟨fun w stored hw hread => ?_, fun _ => hother⟩
    subst hw
    exact key_ne_source hother (hraw w rfl) hread

end Writes

/-- What a synchronisation does once it has found the canonical secret: it looks up the mirror,
decides and performs the decision. -/
def syncFound (rate : τ) (s : Secret) : Task τ Decision := do
  let target ← lookUp rate (.text Names.configNamespace) (.text Names.target)
  let decision ← checked (decide (some s) target (.text Names.target))
  perform rate {} decision
  return decision

/-- All that is written carries the data of what was found. -/
theorem behaves_syncFound (rate : τ) (s : Secret) (h : History τ) :
    (syncFound rate s).Behaves (copying s) h := by
  have hc : (copying s : Contract (requests τ) (Fault τ) (History τ)).PermitsCaching
      fun _ found => found.key = .ok .target := by
    refine permitsCaching_copying s fun found hfound hsource => ?_
    rw [hfound] at hsource
    cases hsource
  have hpost : ∀ (event : Operator.Event) (l : History τ),
      (ask (.post event)).Behaves (copying s) l := fun _ _ => behaves_request fun _ _ => trivial
  unfold syncFound
  refine keeps_bind (hc.lookUp _ _ (fun _ key found hkey hfound => ?_)
    (fun _ w found hw hread => ?_) rate) fun _ _ target htarget => ?_
  · cases hkey
    exact hfound found rfl
  · obtain ⟨_, _, _, _, -, -, -, -, rfl⟩ := Secret.ofWire_eq_ok_iff.1 hread
    exact hw w .target rfl rfl
  refine keeps_bind (P := fun _ decision =>
      Decides (.text Names.target) (some s) target decision)
    (keeps_checked fun decision hdecision _ _ => decides_of_decide hdecision)
    fun l _ decision hrule => ?_
  refine behaves_bind ?_ fun _ _ _ => keeps_pure fun _ _ => trivial
  cases hrule with
  | create hmirror =>
    have hr := Cluster.isMirrorOf_of_mirror hmirror
    rw [perform_create]
    exact behaves_bind (behaves_create (key_ne_source_of_mirror hmirror) hr.data rate l)
      fun l _ _ => hpost _ l
  | foreign hmarker => exact keeps_pure fun _ _ => trivial
  | inSync hmarker hequal => exact keeps_pure fun _ _ => trivial
  | @update _ t data hmarker hdiffers hdata =>
    rw [perform_update]
    refine behaves_bind (behaves_update ?_ hdata.symm rate l) fun l _ _ => hpost _ l
    have hkey : t.key = .ok .target := htarget t rfl
    intro hsource
    rw [show ({ t with data := some data } : Secret).key = t.key from rfl, hkey] at hsource
    cases hsource

/-! ## Continuing the accounts -/

/-- After these occurrences, and the writes among some exchanges, there are accounts of a
history. -/
def Accounted (ds : List (Occurrence Sent)) (xs : List (Exchange (requests τ) (Fault τ)))
    (h : History τ) : Prop :=
  ∃ log, Accounts h (ds ++ occurrencesOf xs) log

variable {ds : List (Occurrence Sent)}

omit [Time τ] in
theorem accounted_nil_iff : Accounted ds [] h ↔ ∃ log, Accounts h ds log := by
  simp only [Accounted, occurrencesOf_nil, List.append_nil]

omit [Time τ] in
theorem Accounted.interferes {xs : List (Exchange (requests τ) (Fault τ))} (ha : Accounted ds xs h)
    (hinterferes : h.Interferes h') : Accounted ds xs h' := by
  obtain ⟨log, ha⟩ := ha
  exact ⟨log, ha.advances hinterferes.advances⟩

theorem sustains_of_asksOnly {α : Type} {p : Task τ α} (hp : p.AsksOnly Request.IsFree) :
    p.Sustains (handle timing) Interferes (Accounted ds) := by
  rintro xs ys h h' r ⟨log, ha⟩ hrun
  obtain ⟨hle, hnil⟩ := advances_of_asksOnly timing hp hrun
  refine ⟨log, ?_⟩
  rw [occurrencesOf_append, hnil, List.append_nil]
  exact ha.advances hle

/-- Counting and logging sustains the accounts. -/
theorem sustains_of_isBookkeeping {α : Type} {p : Task τ α} (hp : IsBookkeeping p) :
    p.Sustains (handle timing) Interferes (Accounted ds) :=
  sustains_of_asksOnly timing (hp.imp fun _ hq => hq.isFree)

omit [Time τ] in
/-- What was found may be written, be it cached or read. -/
theorem exists_admitted {log : List (Occurrence Nat)} {s : Secret} (ha : Accounts h ds log)
    (hlater : h.versions <+: h'.versions) (hs : h.Shows h' s) :
    ∃ k, Copies h'.versions k s ∧ Admits h'.versions log k := by
  rcases hs with ⟨e, he, rfl⟩ | ⟨k, hk, hcopies⟩
  · obtain ⟨k, hcopies, hadmits⟩ := ha.cached e he
    exact ⟨k, hcopies.mono hlater, hadmits.mono hlater ha.orderly.bounded⟩
  · exact ⟨k, hcopies, (ha.orderly.admits hk).mono hlater ha.orderly.bounded⟩

omit [Time τ] in
theorem carries_of_sent {s : Secret} {xs : List (Exchange (requests τ) (Fault τ))}
    (hasked : ∀ x ∈ xs, ∃ l, (copying s : Contract (requests τ) (Fault τ) (History τ)).permits l
      x.request) : ∀ sent ∈ xs.filterMap sent?, sent.body.Carries s := by
  intro sent hsent
  obtain ⟨x, hx, hwrite⟩ := List.mem_filterMap.1 hsent
  obtain ⟨l, hpermits⟩ := hasked x hx
  obtain ⟨q, a⟩ := x
  cases q with
  | create space body =>
    cases hwrite
    obtain ⟨-, -, hcarries⟩ := hpermits
    exact hcarries
  | replace space name body =>
    cases hwrite
    obtain ⟨-, -, -, hcarries⟩ := hpermits
    exact hcarries
  | _ => cases hwrite

/-- A synchronisation sustains the accounts: it writes nothing but the data of what it has found. -/
theorem sustains_sync (rate : τ) :
    (Operator.sync rate {}).Sustains (handle timing) Interferes (Accounted ds) := by
  rintro xs _ h h' r ⟨log, ha⟩ hrun
  -- The synchronisation is cut after its first look-up.  What comes before writes nothing, and what
  -- comes after works with the copy that was found, so the contract `copying` applies to it.
  rw [sync_eq] at hrun
  obtain ⟨ys, a, h₁, zs, hlookUp, hrest, rfl⟩ := hrun.of_bind
  have hf := finds_of_lookUp timing ha.sound hlookUp
  have hnil : occurrencesOf ys = [] := by
    have hharmless := asksOnly_lookUp (P := Request.IsHarmless) (fun _ hq => hq) rate
      (.text Names.configNamespace) (.text Names.source)
    obtain ⟨-, hasked⟩ := hlookUp.relates (R := fun _ _ => True) hharmless (fun _ => trivial)
      (fun _ _ => trivial) (fun _ _ _ => trivial) (fun _ => trivial)
    exact occurrencesOf_eq_nil hasked
  have ha₁ : Accounts h₁ (ds ++ occurrencesOf xs) log :=
    ha.mono hf.versions hf.sound fun e he => exists_admitted ha hf.versions (hf.cached e he)
  have hdone : ∀ {b},
      (Program.done b : Task τ Decision).InterferedRun (handle timing) Interferes h₁ zs r h' →
      Accounted ds (xs ++ (ys ++ zs)) h' := by
    intro b hrest
    obtain ⟨-, rfl, hle⟩ := of_interferedRun_done timing hrest
    refine ⟨log, ?_⟩
    rw [List.append_nil, occurrencesOf_append, hnil, List.append_nil]
    exact ha₁.advances hle
  cases a with
  | error fault => exact hdone hrest
  | ok found =>
    cases found with
    | none => exact hdone hrest
    | some s =>
      obtain ⟨k, hcopies, hadmits⟩ := exists_admitted ha hf.versions (hf.found s rfl)
      have hfoundSync : (syncFound rate s).InterferedRun (handle timing) Interferes h₁ zs r h' :=
        hrest
      obtain ⟨-, hle, -, hasked⟩ := hfoundSync.keeps (I := IsSound) id
        (fun hs hq => answers_copying timing hs hq)
        (fun hs hst => ⟨hst.advances.sound hs, hst.advances⟩) (behaves_syncFound rate s h₁) hf.sound
      have ha' : Accounts h' (ds ++ occurrencesOf xs) log := ha₁.advances hle
      obtain ⟨log', hlog'⟩ := ha'.writes (hcopies.mono hle.versions)
        (hadmits.mono hle.versions ha₁.orderly.bounded)
        (fun e he => hf.only s rfl e (hle.cached e he)) (carries_of_sent hasked)
      refine ⟨log', ?_⟩
      rw [occurrencesOf_append, occurrencesOf_append, hnil, List.nil_append, ← List.append_assoc]
      exact hlog'

/-- A reconciliation sustains the accounts, however it ends. -/
theorem sustains_reconcile (tuning : Tuning τ) (trigger : Value) :
    (reconcile tuning trigger).Sustains (handle timing) Interferes (Accounted ds) := by
  have hinterferes : ∀ ⦃xs h h'⦄, Accounted ds xs h → Interferes h h' →
      Accounted (τ := τ) ds xs h' :=
    fun _ _ _ ha hst => ha.interferes hst
  have bookkeeping : ∀ {α : Type} {p : Task τ α}, IsBookkeeping p →
      p.Sustains (handle timing) Interferes (Accounted ds) := sustains_of_isBookkeeping timing
  unfold reconcile reconcileConnected
  refine .bind hinterferes (bookkeeping isBookkeeping_connect) fun _ => ?_
  refine .bind hinterferes (bookkeeping (isBookkeeping_ask trivial)) fun start => ?_
  refine .bind hinterferes ?_ fun decision => ?_
  · refine .always hinterferes
      (.recover hinterferes (sustains_sync timing tuning.rate) fun fault => ?_)
      (bookkeeping (isBookkeeping_measureSince _ _))
    exact .bind hinterferes (bookkeeping (isBookkeeping_recordFailure trigger fault)) fun _ =>
      bookkeeping (isBookkeeping_passOn _ _ fault)
  · exact .bind hinterferes (bookkeeping (isBookkeeping_recordSuccess trigger decision)) fun _ =>
      bookkeeping (isBookkeeping_pure decision)

/-- So does whatever is built around reconciliations. -/
theorem sustains_embed {α : Type} (tuning : Tuning τ)
    (p : Program (Resync.requests τ) (Fault τ) α) :
    (p.interpret (embed tuning)).Sustains (handle timing) Interferes (Accounted ds) := by
  have hinterferes : ∀ ⦃xs h h'⦄, Accounted ds xs h → Interferes h h' →
      Accounted (τ := τ) ds xs h' :=
    fun _ _ _ ha hst => ha.interferes hst
  have free : ∀ {q : Request τ}, q.IsFree →
      (ask q).Sustains (handle timing) Interferes (Accounted ds) := fun hq =>
    sustains_of_asksOnly timing (behaves_request fun _ _ => hq)
  refine .interpret hinterferes (fun q => ?_) p
  cases q with
  | schedule step => exact free trivial
  | now => exact free trivial
  | pause time => exact free trivial
  | reconcile trigger =>
    refine .bind hinterferes (sustains_reconcile timing tuning trigger) fun _ => ?_
    exact sustains_of_isBookkeeping timing (isBookkeeping_pure ())

end History

end SecretMirror
