import SecretMirror.Proofs.Convergence.Access
import SecretMirror.Proofs.Footprint

/-!
# One reconciliation is enough

In an undisturbed cluster whose cache is coherent at the two secrets, a reconciliation carries out
what is decided about what is stored (`gives_reconcile`): whatever comes from the cache is what a
read would have brought.  Afterwards the mirror is as it should be (`Converges`), and the cluster is
as ready as before.  What it should be is said by look-ups in the stored secrets: by the annotations
that say whose a mirror is and describe it, and by the bytes that its data has under each name.

What is decided then is to do nothing, since the mirror that was written reads as one that bears the
marker and has the data of the canonical secret (`isSettled_of_carriesOut`).  So every further
reconciliation, however much later, writes nothing and emits nothing (`idles_of_isSettled`).
-/

namespace SecretMirror

open Operator
open Program hiding bind ask

/-- The secret is the mirror of a canonical one.  It has the name of the mirror, and the namespace
and the data of the canonical secret.  Its annotations say that the operator manages it and describe
it as the canonical one is described, if it is; they say nothing else.  It has the one finalizer
that keeps it from being deleted, and neither labels nor owners. -/
structure Secret.IsMirrorOf (m s : Secret) : Prop where
  name : m.name = .text Names.target
  space : m.space = s.space
  data : m.data = s.data
  annotations : ∃ given, m.annotations = .object given
  managed : m.Annotates Names.managedBy (.text Names.manager)
  described : ∀ v, m.Annotates Names.description v ↔ s.Annotates Names.description v
  nothingElse : ∀ name v, m.Annotates name v →
    name = Names.managedBy ∨ name = Names.description
  finalizers : m.finalizers = .list [.text Names.finalizer]
  labels : m.labels = .object []
  ownerReferences : m.ownerReferences = .list []

/-- A served record reads as a secret with its key, plain annotations and its version. -/
theorem WireSecret.IsServed.reads {w : WireSecret} {key : Key} (h : w.IsServed key) {s : Secret}
    (hs : Secret.ofWire w = .ok s) :
    s.key = .ok key ∧ s.annotations.plain = s.annotations ∧
      s.resourceVersion.same w.metadata.resourceVersion = true := by
  obtain ⟨_, _, _, _, -, -, -, -, rfl⟩ := Secret.ofWire_eq_ok_iff.1 hs
  refine ⟨h.own, ?_, h.version⟩
  rcases h.annotations with hnull | ⟨fields, hfields⟩
  · simp [hnull, Value.annotationSection]
  · simp [hfields, Value.annotationSection]

theorem Key.ofValues_rename {space name : Value} {key : Key}
    (h : Key.ofValues space name = .ok key) (other : String) :
    Key.ofValues space (.text other) = .ok ⟨key.space, .text other⟩ := by
  unfold Key.ofValues at h ⊢
  cases hspace : space.atom? with
  | none => simp [hspace] at h
  | some a =>
    cases hname : name.atom? with
    | none => simp [hspace, hname] at h
    | some b =>
      simp only [hspace, hname, Except.ok.injEq] at h
      rw [← h]
      rfl

namespace Cluster

variable {τ : Type} [Time τ] {c d e : Cluster τ}

/-- What is decided about what is stored, be it what the cache shows or not. -/
def Server.due (s : Server) : Except Malformed Decision :=
  decide (s.seen .source) (s.seen .target) (.text Names.target)

/-- A cluster in which a reconciliation can do its work: nothing is disturbed, both secrets are
well-formed where they are stored, and the cache shows no other versions of them. -/
structure IsReady (c : Cluster τ) : Prop where
  undisturbed : c.IsUndisturbed
  served : ∀ key, key = .source ∨ key = .target →
    ∀ w, c.server.objects key = some w → w.IsServed key
  coherent : ∀ key, key = .source ∨ key = .target → c.Coherent key

/-- From the first state to the second one, what was decided has been carried out.  Where nothing is
to be done, time passes and nothing is seen from outside but reads. -/
def CarriesOut (c : Cluster τ) (decision : Decision) (d : Cluster τ) : Prop :=
  match decision with
  | .noOp _ => c.Passes d
  | .create s => ∃ stored, c.Writes .target s stored d
  | .update s => ∃ stored, c.Writes .target s stored d

/-- There is nothing to do: what is decided about what is stored is to leave it alone. -/
def IsSettled (c : Cluster τ) : Prop := ∃ why, c.server.due = .ok (.noOp why)

/-! ## What is read under a key -/

theorem Server.seen_of_objects {s : Server} {key : Key} {w : WireSecret} {r : Secret}
    (hw : s.objects key = some w) (hr : Secret.ofWire w = .ok r) : s.seen key = some r := by
  rw [Server.seen, hw, Option.bind_some, hr]
  rfl

theorem Server.objects_of_seen {s : Server} {key : Key} {r : Secret} (h : s.seen key = some r) :
    ∃ w, s.objects key = some w ∧ Secret.ofWire w = .ok r := by
  obtain ⟨w, hw, hr⟩ := Option.bind_eq_some_iff.1 h
  refine ⟨w, hw, ?_⟩
  cases hread : Secret.ofWire w with
  | error m => simp [hread, Except.toOption] at hr
  | ok r' =>
    rw [hread] at hr
    rw [← Option.some.inj hr]

theorem Server.objects_eq_none {s : Server} {key : Key}
    (hserved : ∀ w, s.objects key = some w → w.IsServed key) (h : s.seen key = none) :
    s.objects key = none := by
  cases hw : s.objects key with
  | none => rfl
  | some w =>
    obtain ⟨r, hr⟩ := (hserved w hw).read
    rw [Server.seen_of_objects hw hr] at h
    cases h

/-! ## What is decided -/

/-- The annotations that a mirror is created with bind the operator's own name, the description of
the canonical secret, and nothing else. -/
theorem get?_mirrorAnnotations (description? : Option Value) (name : String) :
    Fields.get? (mirrorAnnotations description?) name =
      if name = Names.managedBy then some (.text Names.manager)
      else if name = Names.description then description? else none := by
  have hne : Names.managedBy ≠ Names.description := by decide
  unfold mirrorAnnotations
  rw [Fields.get?_cons]
  by_cases hmanaged : name = Names.managedBy
  · rw [if_pos hmanaged.symm, if_pos hmanaged]
  · have hmanaged' : Names.managedBy ≠ name := fun heq => hmanaged heq.symm
    rw [if_neg hmanaged', if_neg hmanaged]
    by_cases hdescription : name = Names.description
    · subst hdescription
      cases description? <;> simp [Fields.get?_cons]
    · have hdescription' : Names.description ≠ name := fun heq => hdescription heq.symm
      cases description? <;> simp [Fields.get?_cons, hdescription, hdescription']

/-- The mirror that is created for a canonical secret. -/
theorem isMirrorOf_of_mirror {s r : Secret} (h : s.mirror (.text Names.target) = .ok r) :
    r.IsMirrorOf s := by
  have hmarker := Secret.isManaged_of_mirror h
  obtain ⟨data, hdata, rfl⟩ := Secret.mirror_eq_ok_iff.1 h
  have hne : Names.description ≠ Names.managedBy := by decide
  have hannotates : ∀ name v, Secret.Annotates
      { name := .text Names.target, space := s.space, data := some data
        annotations := .object (mirrorAnnotations s.description?)
        finalizers := .list [.text Names.finalizer] } name v ↔
      Fields.get? (mirrorAnnotations s.description?) name = some v := by
    intro name v
    simp [Secret.Annotates]
  refine ⟨rfl, rfl, hdata.symm, ⟨_, rfl⟩, Secret.isManaged_iff.1 hmarker, fun v => ?_,
    fun name v hv => ?_, rfl, rfl, rfl⟩
  · rw [hannotates, get?_mirrorAnnotations, if_neg hne, if_pos rfl,
      Secret.description?_eq_some_iff]
  · rw [hannotates, get?_mirrorAnnotations] at hv
    by_contra hname
    rw [not_or] at hname
    rw [if_neg hname.1, if_neg hname.2] at hv
    cases hv

/-- Something is decided about whatever is read. -/
theorem exists_due (s : Server) : ∃ decision, s.due = .ok decision := by
  have hdata : ∀ r, s.seen .source = some r → ∃ data, r.data = some data := by
    intro r hr
    obtain ⟨w, -, hread⟩ := Server.objects_of_seen hr
    exact (Secret.isRead_of_ofWire hread).data
  obtain ⟨decision, h⟩ := exists_decides (.text Names.target) (s.seen .target) hdata
  exact ⟨decision, decide_eq_ok_iff.2 h⟩

/-! ## Readiness -/

theorem IsReady.later (hc : c.IsReady) (h : c.Later d) : d.IsReady where
  undisturbed := h.undisturbed hc.undisturbed
  served key hkey w hw := by
    rw [h.server] at hw
    exact hc.served key hkey w hw
  coherent key hkey := h.coherent key (hc.coherent key hkey)

theorem IsReady.writes (hc : c.IsReady) {secret stored : Secret}
    (h : c.Writes .target secret stored d) : d.IsReady := by
  obtain ⟨⟨w, hstores, hserved, -⟩, hcoherent, -⟩ := h
  refine ⟨hstores.undisturbed hc.undisturbed, fun key hkey v hv => ?_, fun key hkey => ?_⟩
  · by_cases heq : key = .target
    · subst heq
      rw [hstores.stored] at hv
      cases hv
      exact hserved
    · rw [hstores.others key heq] at hv
      exact hc.served key hkey v hv
  · by_cases heq : key = .target
    · subst heq
      exact hcoherent
    · exact hstores.coherent key heq (hc.coherent key hkey)

theorem IsReady.carriesOut (hc : c.IsReady) {decision : Decision}
    (h : c.CarriesOut decision d) : d.IsReady := by
  cases decision with
  | noOp why => exact hc.later h.toLater
  | create s =>
    obtain ⟨stored, hwrites⟩ := h
    exact hc.writes hwrites
  | update s =>
    obtain ⟨stored, hwrites⟩ := h
    exact hc.writes hwrites

namespace Writes

variable {key : Key} {secret stored : Secret}

theorem of_later [Time.IsExact τ] (h : c.Later d) (h' : d.Writes key secret stored e) :
    c.Writes key secret stored e := by
  obtain ⟨⟨w, hstores, hrest⟩, hcoherent, hcontent⟩ := h'
  exact ⟨⟨w, hstores.of_later h, hrest⟩, hcoherent, hcontent⟩

theorem later [Time.IsExact τ] (h : c.Writes key secret stored d) (h' : d.Later e) :
    c.Writes key secret stored e := by
  obtain ⟨⟨w, hstores, hrest⟩, hcoherent, hcontent⟩ := h
  exact ⟨⟨w, hstores.later h', hrest⟩, h'.coherent key hcoherent, hcontent⟩

theorem seen (h : c.Writes key secret stored d) : d.server.seen key = some stored := by
  obtain ⟨⟨w, hstores, -, hread⟩, -, -⟩ := h
  exact Server.seen_of_objects hstores.stored hread

theorem seen_of_ne (h : c.Writes key secret stored d) {other : Key} (hne : other ≠ key) :
    d.server.seen other = c.server.seen other := by
  obtain ⟨⟨w, hstores, -, -⟩, -, -⟩ := h
  rw [Server.seen, hstores.others other hne, Server.seen]

end Writes

theorem CarriesOut.of_passes [Time.IsExact τ] {decision : Decision} (h : c.Passes d)
    (h' : d.CarriesOut decision e) : c.CarriesOut decision e := by
  cases decision with
  | noOp why => exact h.trans h'
  | create s =>
    obtain ⟨stored, hwrites⟩ := h'
    exact ⟨stored, hwrites.of_later h.toLater⟩
  | update s =>
    obtain ⟨stored, hwrites⟩ := h'
    exact ⟨stored, hwrites.of_later h.toLater⟩

theorem CarriesOut.passes [Time.IsExact τ] {decision : Decision} (h : c.CarriesOut decision d)
    (h' : d.Passes e) : c.CarriesOut decision e := by
  cases decision with
  | noOp why => exact h.trans h'
  | create s =>
    obtain ⟨stored, hwrites⟩ := h
    exact ⟨stored, hwrites.later h'.toLater⟩
  | update s =>
    obtain ⟨stored, hwrites⟩ := h
    exact ⟨stored, hwrites.later h'.toLater⟩

/-! ## What a reconciliation leads to -/

/-- What one reconciliation makes of what was stored.  Whose a mirror is, and which bytes its data
has under each name, is read off the stored secrets themselves. -/
structure Converges (c d : Cluster τ) : Prop where
  /-- Without a canonical secret nothing happens. -/
  absent : c.server.seen .source = none →
    d.server = c.server ∧ d.record.events = c.record.events
  /-- Nothing happens to somebody else's secret. -/
  foreign : ∀ t, c.server.seen .target = some t →
    ¬ t.Annotates Names.managedBy (.text Names.manager) →
    d.server = c.server ∧ d.record.events = c.record.events
  /-- If there is no mirror, one is created. -/
  created : ∀ s, c.server.seen .source = some s → c.server.seen .target = none →
    ∃ m, d.server.seen .target = some m ∧ m.IsMirrorOf s
  /-- A mirror of the operator gets the data under every name, and keeps everything else but the
  version. -/
  updated : ∀ s t, c.server.seen .source = some s → c.server.seen .target = some t →
    t.Annotates Names.managedBy (.text Names.manager) →
    ∃ m, d.server.seen .target = some m ∧ (∀ name, m.datum? name = s.datum? name) ∧
      m = { t with data := m.data, resourceVersion := m.resourceVersion }
  /-- No other secret is touched. -/
  others : ∀ key, key ≠ .target → d.server.objects key = c.server.objects key

/-- To do nothing is right unless a mirror has to be created or updated. -/
theorem converges_of_passes (h : c.Passes d)
    (hcreated : c.server.seen .source ≠ none → c.server.seen .target ≠ none)
    (hupdated : ∀ s t, c.server.seen .source = some s → c.server.seen .target = some t →
      t.isManaged = true → ∀ name, t.datum? name = s.datum? name) : c.Converges d where
  absent _ := ⟨h.server, h.events⟩
  foreign _ _ _ := ⟨h.server, h.events⟩
  created s hs ht := by
    have hsome : c.server.seen .source ≠ none := by
      rw [hs]
      exact Option.some_ne_none s
    exact absurd ht (hcreated hsome)
  updated s t hs ht hmarker := by
    rw [h.server]
    exact ⟨t, ht, hupdated s t hs ht (Secret.isManaged_iff.2 hmarker), rfl⟩
  others key _ := by rw [h.server]

theorem converges_of_create {r stored : Secret} (hdue : c.server.due = .ok (.create r))
    (h : c.Writes .target r stored d) : c.Converges d := by
  have hrules := decides_of_decide hdue
  generalize hsource : c.server.seen .source = source at hrules
  generalize htarget : c.server.seen .target = target at hrules
  cases hrules with
  | @create source r hmirror =>
    refine ⟨fun hs => ?_, fun t ht _ => ?_, fun s hs _ => ?_, fun s t _ ht _ => ?_, ?_⟩
    · rw [hsource] at hs
      cases hs
    · rw [htarget] at ht
      cases ht
    · rw [hsource] at hs
      cases hs
      have hr := isMirrorOf_of_mirror hmirror
      refine ⟨stored, h.seen, ?_⟩
      rw [h.content]
      exact ⟨hr.1, hr.2, hr.3, hr.4, hr.5, hr.6, hr.7, hr.8, hr.9, hr.10⟩
    · rw [htarget] at ht
      cases ht
    · obtain ⟨⟨w, hstores, -⟩, -, -⟩ := h
      exact hstores.others

theorem converges_of_update {r stored : Secret} (hdue : c.server.due = .ok (.update r))
    (h : c.Writes .target r stored d) : c.Converges d := by
  have hrules := decides_of_decide hdue
  generalize hsource : c.server.seen .source = source at hrules
  generalize htarget : c.server.seen .target = target at hrules
  cases hrules with
  | @update source target data hmarker hdiffers hdata =>
    refine ⟨fun hs => ?_, fun t ht hmarker' => ?_, fun s _ ht => ?_, fun s t hs ht _ => ?_, ?_⟩
    · rw [hsource] at hs
      cases hs
    · rw [htarget] at ht
      cases ht
      exact absurd (Secret.isManaged_iff.1 hmarker) hmarker'
    · rw [htarget] at ht
      cases ht
    · rw [hsource] at hs
      rw [htarget] at ht
      cases hs
      cases ht
      have hstored : stored.data = source.data := by
        rw [h.content, hdata]
      refine ⟨stored, h.seen, ?_, ?_⟩
      · intro name
        rw [Secret.datum?, hstored, Secret.datum?]
      · rw [hstored, hdata]
        exact h.content
    · obtain ⟨⟨w, hstores, -⟩, -, -⟩ := h
      exact hstores.others

theorem converges_of_carriesOut {decision : Decision} (hdue : c.server.due = .ok decision)
    (h : c.CarriesOut decision d) : c.Converges d := by
  -- What was due is one of the rules of `Decides`, and each of them has its own part in the claim.
  cases decision with
  | create r =>
    obtain ⟨stored, hwrites⟩ := h
    exact converges_of_create hdue hwrites
  | update r =>
    obtain ⟨stored, hwrites⟩ := h
    exact converges_of_update hdue hwrites
  | noOp why =>
    have hrules := decides_of_decide hdue
    generalize hsource : c.server.seen .source = source at hrules
    generalize htarget : c.server.seen .target = target at hrules
    apply converges_of_passes h
    · intro hsome hnone
      rw [hsource] at hsome
      rw [htarget] at hnone
      subst hnone
      cases hrules with
      | sourceAbsent => exact hsome rfl
    · intro s t hs ht hmarker
      rw [hsource] at hs
      rw [htarget] at ht
      subst hs ht
      cases hrules with
      | foreign _ hforeign =>
        rw [hmarker] at hforeign
        cases hforeign
      | inSync _ hequal => exact Secret.equal_iff.1 hequal

omit [Time τ] in
theorem isSettled_of_equal {s m : Secret} (hsource : c.server.seen .source = some s)
    (htarget : c.server.seen .target = some m) (hmarker : m.isManaged = true)
    (hequal : Data.equal m.data s.data = true) : c.IsSettled := by
  refine ⟨.inSync, ?_⟩
  rw [Server.due, hsource, htarget]
  exact decide_eq_ok_iff.2 (.inSync hmarker hequal)

/-- After what was decided has been carried out, the decision is to do nothing. -/
theorem isSettled_of_carriesOut {decision : Decision} (hdue : c.server.due = .ok decision)
    (h : c.CarriesOut decision d) : d.IsSettled := by
  have hconverges := converges_of_carriesOut hdue h
  have hsame : (Key.source : Key) ≠ .target := by decide
  have hrules := decides_of_decide hdue
  generalize hsource : c.server.seen .source = source at hrules
  generalize htarget : c.server.seen .target = target at hrules
  cases decision with
  | noOp why =>
    refine ⟨why, ?_⟩
    rw [h.server]
    exact hdue
  | create r =>
    obtain ⟨stored, hwrites⟩ := h
    have hsource' := hwrites.seen_of_ne hsame
    cases hrules with
    | @create source r hmirror =>
      obtain ⟨m, hm, hmirror⟩ := hconverges.created source hsource htarget
      rw [hsource] at hsource'
      apply isSettled_of_equal hsource' hm (Secret.isManaged_iff.2 hmirror.managed)
      exact Data.equal_of_copied hmirror.data
  | update r =>
    obtain ⟨stored, hwrites⟩ := h
    have hsource' := hwrites.seen_of_ne hsame
    cases hrules with
    | @update source target data hmarker hdiffers hdata =>
      obtain ⟨m, hm, hdata, hcontent⟩ :=
        hconverges.updated source target hsource htarget (Secret.isManaged_iff.1 hmarker)
      rw [hsource] at hsource'
      apply isSettled_of_equal hsource' hm _ (Secret.equal_iff.2 hdata)
      rw [hcontent]
      exact hmarker

/-! ## One reconciliation -/

variable [Time.IsExact τ] (timing : Resync.Timing τ)

/-- An event that is emitted is seen from outside, but neither the server nor the cache have to do
with it. -/
theorem gives_post (hundisturbed : c.IsUndisturbed) (event : Operator.Event) :
    ∃ d, (ask (.post event)).Gives (handle timing) c () d ∧ c.Later d := by
  have hanswer : handle timing (.post event) c =
      (.ok (), { c with record := { c.record with events := c.record.events ++ [event] } }) := by
    show c.post event = _
    rw [post, hundisturbed.eventFault]
  refine ⟨_, gives_request hanswer, ?_⟩
  exact .of_same_cache (Time.le_refl c.clock) rfl rfl fun h => ⟨h.1, h.2, h.3, h.4, h.5⟩

/-- The key of a mirror that is about to be created. -/
theorem key_of_mirror {source r : Secret} (hsource : source.key = .ok Key.source)
    (h : source.mirror (.text Names.target) = .ok r) : r.key = .ok Key.target := by
  have hr := isMirrorOf_of_mirror h
  rw [Secret.key, hr.name, hr.space]
  exact Key.ofValues_rename hsource Names.target

/-- What was decided is done, and an event is emitted about it. -/
theorem gives_execute {rate : τ} (hrate : Time.isZero rate = false) (hc : c.IsReady)
    (reference : Value) {decision : Decision} (hdue : c.server.due = .ok decision) :
    ∃ d, (Sync.execute {} decision).Gives
        (fun q => (collaborate rate reference q).run (handle timing)) c () d ∧
      c.CarriesOut decision d := by
  have hrules := decides_of_decide hdue
  generalize hsource : c.server.seen .source = source at hrules
  generalize htarget : c.server.seen .target = target at hrules
  cases hrules with
  | sourceAbsent => exact ⟨c, gives_pure _ _, Passes.refl c⟩
  | foreign => exact ⟨c, gives_pure _ _, Passes.refl c⟩
  | inSync => exact ⟨c, gives_pure _ _, Passes.refl c⟩
  | @create source r hmirror =>
    obtain ⟨w, hw, hread⟩ := Server.objects_of_seen hsource
    have hkey := key_of_mirror ((hc.served .source (.inl rfl) w hw).reads hread).1 hmirror
    have hplain : r.annotations.plain = r.annotations := by
      obtain ⟨given, hgiven⟩ := (isMirrorOf_of_mirror hmirror).annotations
      rw [hgiven]
      rfl
    have hnone := Server.objects_eq_none (hc.served .target (.inr rfl)) htarget
    obtain ⟨c₁, stored, hcreated, hwrites⟩ := gives_create timing hrate hc.undisturbed
      (Secret.isRead_of_mirror hmirror) hplain hkey hnone
    obtain ⟨d, hposted, hd⟩ := gives_post timing (hc.writes hwrites).undisturbed
      { object := reference, reason := .text Names.createdReason,
        message := .text s!"Secret {Sync.Places.targetPath {}} created" }
    refine ⟨d, ?_, stored, hwrites.later hd⟩
    exact gives_bind (gives_request hcreated) (gives_request hposted)
  | @update source target data hmarker hdiffers hdata =>
    obtain ⟨old, hold, hread⟩ := Server.objects_of_seen htarget
    obtain ⟨hkey, hplain, hsame⟩ := (hc.served .target (.inr rfl) old hold).reads hread
    have hshape := (Secret.isRead_of_ofWire hread).withData data
    obtain ⟨c₁, stored, hupdated, hwrites⟩ :=
      gives_update timing hrate hc.undisturbed hshape hplain hkey hold hsame
    obtain ⟨d, hposted, hd⟩ := gives_post timing (hc.writes hwrites).undisturbed
      { object := reference, reason := .text Names.updatedReason,
        message := .text s!"Secret {Sync.Places.targetPath {}} updated" }
    refine ⟨d, ?_, stored, hwrites.later hd⟩
    exact gives_bind (gives_request hupdated) (gives_request hposted)

theorem gives_sync {rate : τ} (hrate : Time.isZero rate = false) (hc : c.IsReady) :
    ∃ d decision, (Operator.sync rate {}).Gives (handle timing) c decision d ∧
      c.server.due = .ok decision ∧ c.CarriesOut decision d := by
  obtain ⟨c₁, hsource, h₁⟩ := gives_lookUp timing hrate hc.undisturbed
    (Key.ofValues_text Names.configNamespace Names.source) (hc.coherent .source (.inl rfl))
    (hc.served .source (.inl rfl))
  have hc₁ := hc.later h₁.toLater
  obtain ⟨decision, hdue⟩ := exists_due c.server
  have hdecided := hdue
  unfold Server.due at hdecided
  -- By coherence the look-ups find what is stored, so what is decided is what is due.
  cases hseen : c.server.seen .source with
  | none =>
    have hseen' : c.server.seen (.ofTexts Names.configNamespace Names.source) = none := hseen
    rw [hseen'] at hsource
    rw [hseen] at hdecided
    cases hdecided
    refine ⟨c₁, .noOp .sourceAbsent, gives_interpret ?_, hdue, h₁⟩
    exact gives_bind (gives_request hsource) (gives_ofExcept rfl c₁)
  | some source =>
    have hseen' : c.server.seen (.ofTexts Names.configNamespace Names.source) = some source := hseen
    rw [hseen'] at hsource
    obtain ⟨c₂, htarget, h₂⟩ := gives_lookUp timing hrate hc₁.undisturbed
      (Key.ofValues_text Names.configNamespace Names.target) (hc₁.coherent .target (.inr rfl))
      (hc₁.served .target (.inr rfl))
    have hpassed := h₁.trans h₂
    rw [h₁.server] at htarget
    rw [← hpassed.server] at hdue
    obtain ⟨d, hexecuted, hd⟩ := gives_execute timing hrate
      (hc.later hpassed.toLater) (Sync.Places.targetReference {}) hdue
    rw [hpassed.server] at hdue
    refine ⟨d, decision, gives_interpret ?_, hdue, hd.of_passes hpassed⟩
    refine gives_bind (gives_request hsource) (gives_bind (gives_request htarget) ?_)
    refine gives_bind (gives_ofExcept ?_ c₂) (gives_bind hexecuted (gives_pure _ _))
    rw [hseen] at hdecided
    show (decide (some source) (c.server.seen .target) (.text Names.target)).mapError _ = _
    rw [hdecided]
    rfl

theorem gives_connect (hundisturbed : c.IsUndisturbed) :
    ∃ d, connect.Gives (handle timing) c () d ∧ c.Passes d := by
  have hanswer : handle timing .clusterConfig c = (.ok (), { c with
      record := { c.record with clientSources := c.record.clientSources ++ [.cluster] } }) := by
    show c.configure .cluster = _
    unfold configure
    rw [hundisturbed.clientFaults]
  refine ⟨_, gives_recover (gives_request hanswer), ?_⟩
  exact ⟨.of_same_cache (Time.le_refl c.clock) rfl rfl fun h => ⟨h.1, h.2, h.3, h.4, h.5⟩, rfl, rfl⟩

theorem gives_recordSuccess (trigger : String) (decision : Decision) (c : Cluster τ) :
    ∃ d, (recordSuccess (.text trigger) decision).Gives (handle timing) c () d ∧ c.Passes d := by
  obtain ⟨line, hline, -⟩ := exists_successLine trigger decision
  obtain ⟨c₁, hcounted, h₁⟩ := gives_count timing
    (.reconciliations (Value.text trigger).display (resultName decision.action)) c
  obtain ⟨d, hlogged, hd⟩ := gives_log timing line c₁
  refine ⟨d, gives_bind hcounted (gives_bind ?_ hlogged), h₁.trans hd⟩
  exact gives_ofExcept (congrArg (Except.mapError Fault.malformed) hline) c₁

/-- A reconciliation carries out what is decided about what is stored, whether it finds the two
secrets in the cache or reads them. -/
theorem gives_reconcile {tuning : Tuning τ} (hrate : Time.isZero tuning.rate = false)
    (hc : c.IsReady) (trigger : String) :
    ∃ d decision, (reconcile tuning (.text trigger)).Gives (handle timing) c decision d ∧
      c.server.due = .ok decision ∧ c.CarriesOut decision d := by
  obtain ⟨c₁, hconnected, h₁⟩ := gives_connect timing hc.undisturbed
  obtain ⟨c₂, decision, hsynced, hdue, h₂⟩ :=
    gives_sync timing hrate (hc.later h₁.toLater)
  rw [h₁.server] at hdue
  obtain ⟨c₃, hmeasured, h₃⟩ := gives_measureSince timing c₁.clock
    (.reconciliationTime (Value.text trigger).display) c₂
  obtain ⟨d, hrecorded, hd⟩ := gives_recordSuccess timing trigger decision c₃
  refine ⟨d, decision, ?_, hdue, (h₂.of_passes h₁).passes (h₃.trans hd)⟩
  refine gives_bind hconnected (gives_bind (a := c₁.clock) rfl ?_)
  refine gives_bind (gives_always (gives_recover hsynced) hmeasured) ?_
  exact gives_bind hrecorded (gives_pure _ _)

/-! ## Nothing is left to do -/

/-- One reconciliation after another, each after a time and for a reason, has nothing to do. -/
def Idles (timing : Resync.Timing τ) (tuning : Tuning τ) :
    List (τ × String) → Cluster τ → Cluster τ → Prop
  | [], c, d => d = c
  | (wait, trigger) :: later, c, d => ∃ why e,
    (reconcile tuning (.text trigger)).Gives (handle timing) (c.advance wait) (.noOp why) e ∧
      Idles timing tuning later e d

theorem passes_advance {wait : τ} (hwait : 0 ≤ wait) : c.Passes (c.advance wait) := by
  refine ⟨.of_same_cache ?_ rfl rfl fun h => ⟨h.1, h.2, h.3, h.4, h.5⟩, rfl, rfl⟩
  exact Time.IsExact.le_add_of_nonneg c.clock hwait

theorem idles_of_isSettled {tuning : Tuning τ} (hrate : Time.isZero tuning.rate = false)
    (hc : c.IsReady) (hsettled : c.IsSettled) {later : List (τ × String)}
    (hlater : ∀ x ∈ later, 0 ≤ x.1) :
    ∃ d, c.Passes d ∧ Idles timing tuning later c d := by
  induction later generalizing c with
  | nil => exact ⟨c, .refl c, rfl⟩
  | cons x rest ih =>
    obtain ⟨wait, trigger⟩ := x
    have hwait : 0 ≤ wait := hlater (wait, trigger) (List.mem_cons_self ..)
    have hpassed : c.Passes (c.advance wait) := passes_advance hwait
    obtain ⟨d, decision, hgives, hdue, hcarried⟩ :=
      gives_reconcile timing hrate (hc.later hpassed.toLater) trigger
    obtain ⟨why, hwhy⟩ := hsettled
    -- Nothing has changed at the server, so doing nothing is still what is decided.
    obtain rfl : decision = .noOp why := by
      rw [hpassed.server, hwhy] at hdue
      exact (Except.ok.inj hdue).symm
    have hd : c.Passes d := hpassed.trans hcarried
    have hsettled' : d.IsSettled := ⟨why, by rw [hd.server]; exact hwhy⟩
    obtain ⟨e, he, hidles⟩ := ih (hc.later hd.toLater) hsettled'
      fun y hy => hlater y (List.mem_cons_of_mem _ hy)
    exact ⟨e, hd.trans he, why, d, hgives, hidles⟩

/-- One reconciliation in an undisturbed cluster brings the mirror in line with the canonical
secret: one that is missing is created with its data and its description, one that bears the marker
gets the data name by name and keeps everything else, and one of somebody else is left alone.  The
cluster is ready afterwards, and every further reconciliation, whenever it comes, does nothing: it
writes nothing and emits nothing. -/
theorem reconcile_converges {tuning : Tuning τ} (hrate : Time.isZero tuning.rate = false)
    (hc : c.IsReady) (trigger : String) :
    ∃ d decision, (reconcile tuning (.text trigger)).Gives (handle timing) c decision d ∧
      c.Converges d ∧ d.IsReady ∧
      ∀ later : List (τ × String), (∀ x ∈ later, 0 ≤ x.1) →
        ∃ e, d.Passes e ∧ Idles timing tuning later d e := by
  obtain ⟨d, decision, hgives, hdue, hcarried⟩ :=
    gives_reconcile timing hrate hc trigger
  have hd : d.IsReady := hc.carriesOut hcarried
  refine ⟨d, decision, hgives, converges_of_carriesOut hdue hcarried, hd, fun later hlater => ?_⟩
  exact idles_of_isSettled timing hrate hd (isSettled_of_carriesOut hdue hcarried) hlater

/-- A cluster with a canonical secret that is cached, and no mirror. -/
def withoutMirror : Cluster ℚ :=
  { Cluster.new 1000 30 with
    cache := Cache.put { ttl := 30 } .source Example.source 990
    server := { objects := fun key => if key = .source then some Example.canonical else none } }

theorem isServed_canonical : Example.canonical.IsServed .source :=
  ⟨⟨_, Example.ofWire_canonical⟩, rfl, .inl rfl, rfl⟩

theorem isReady_withoutMirror : withoutMirror.IsReady where
  undisturbed := ⟨fun _ => rfl, fun _ => rfl, rfl, rfl, Time.le_refl _⟩
  served key _ w hw := by
    simp only [withoutMirror] at hw
    split at hw
    · next heq =>
      cases hw
      subst heq
      exact isServed_canonical
    · cases hw
  coherent key _ e he := by
    have hfind : (({ ttl := 30 } : Cache ℚ).put .source Example.source 990).find? key = some e := he
    rw [Cache.find?_put] at hfind
    split at hfind
    · next heq =>
      cases hfind
      subst heq
      exact .inr rfl
    · cases hfind

end Cluster

namespace Example

/-- A canonical secret with two data, a description, and an annotation that concerns nobody else, as
it is stored. -/
def described : WireSecret where
  metadata := {
    name := .text Names.source
    space := .text Names.configNamespace
    annotations := .object [(Names.description, .text "keys"), ("owner", .text "kube")]
    resourceVersion := .text "7" }
  data := .object [("key", .text "AQ=="), ("salt", .text "Ag==")]

/-- That secret as it is read. -/
def describedSource : Secret where
  name := .text Names.source
  space := .text Names.configNamespace
  data := some [("key", [1]), ("salt", [2])]
  annotations := .object [(Names.description, .text "keys"), ("owner", .text "kube")]
  resourceVersion := .text "7"

/-- A mirror in which one datum is outdated, one is missing and one is too many, with a label and an
annotation that somebody has added. -/
def diverged : WireSecret where
  metadata := {
    name := .text Names.target
    space := .text Names.configNamespace
    annotations := .object [(Names.managedBy, .text Names.manager), ("note", .text "kept")]
    labels := .object [("tier", .text "control-plane")]
    resourceVersion := .text "3" }
  data := .object [("key", .text "CQ=="), ("old", .text "Aw==")]

/-- That mirror as it is read. -/
def divergedTarget : Secret where
  name := .text Names.target
  space := .text Names.configNamespace
  data := some [("key", [9]), ("old", [3])]
  annotations := .object [(Names.managedBy, .text Names.manager), ("note", .text "kept")]
  labels := .object [("tier", .text "control-plane")]
  resourceVersion := .text "3"

theorem isServed_described : described.IsServed .source :=
  ⟨⟨describedSource, rfl⟩, rfl, .inr ⟨_, rfl⟩, rfl⟩

theorem isServed_diverged : diverged.IsServed .target :=
  ⟨⟨divergedTarget, rfl⟩, rfl, .inr ⟨_, rfl⟩, rfl⟩

end Example

namespace Cluster

/-- A cluster with a described canonical secret, which is cached, and no mirror. -/
def unmirrored : Cluster ℚ :=
  { Cluster.new 1000 30 with
    cache := Cache.put { ttl := 30 } .source Example.describedSource 990
    server := { objects := fun key => if key = .source then some Example.described else none } }

/-- A cluster whose mirror has diverged.  The mirror is cached as it is, and the canonical secret
was cached too long ago. -/
def drifting : Cluster ℚ :=
  { Cluster.new 1000 30 with
    cache := Cache.put (Cache.put { ttl := 30 } .source Example.source 900) .target
      Example.divergedTarget 990
    server := {
      objects := fun key => if key = .source then some Example.described
        else if key = .target then some Example.diverged else none
      version := 7 } }

theorem isReady_unmirrored : unmirrored.IsReady where
  undisturbed := ⟨fun _ => rfl, fun _ => rfl, rfl, rfl, Time.le_refl _⟩
  served key _ w hw := by
    simp only [unmirrored] at hw
    split at hw
    · next heq =>
      cases hw
      subst heq
      exact Example.isServed_described
    · cases hw
  coherent key _ e he := by
    have hfind : (({ ttl := 30 } : Cache ℚ).put .source Example.describedSource 990).find? key =
        some e := he
    rw [Cache.find?_put] at hfind
    split at hfind
    · next heq =>
      cases hfind
      subst heq
      exact .inr rfl
    · cases hfind

theorem isReady_drifting : drifting.IsReady where
  undisturbed := ⟨fun _ => rfl, fun _ => rfl, rfl, rfl, Time.le_refl _⟩
  served key _ w hw := by
    simp only [drifting] at hw
    split at hw
    · next heq =>
      cases hw
      subst heq
      exact Example.isServed_described
    · split at hw
      · next heq =>
        cases hw
        subst heq
        exact Example.isServed_diverged
      · cases hw
  coherent key _ e he := by
    simp only [drifting, Cache.find?_put] at he
    split at he
    · next heq =>
      cases he
      subst heq
      exact .inr rfl
    · split at he
      · next heq =>
        cases he
        subst heq
        exact .inl (by decide +kernel)
      · cases he

/-- Where there is no mirror, one is created with the data, the description and the operator's own
annotation; a mirror that has diverged gets the data and keeps its label and the annotation that was
added.  A minute later there is nothing to do. -/
theorem reconcile_converges_unmirrored_and_drifting :
    (∃ d decision m e, (reconcile ⟨8, 5, ⟨300, 30⟩⟩ (.text "timer")).Gives (handle ⟨300, 30⟩)
        unmirrored decision d ∧
      d.server.seen .target = some m ∧ m.data = some [("key", [1]), ("salt", [2])] ∧
      m.Annotates Names.managedBy (.text Names.manager) ∧
      m.Annotates Names.description (.text "keys") ∧ (∀ v, ¬ m.Annotates "owner" v) ∧
      m.finalizers = .list [.text Names.finalizer] ∧ d.IsReady ∧ d.Passes e ∧
      Idles ⟨300, 30⟩ ⟨8, 5, ⟨300, 30⟩⟩ [(60, "timer")] d e) ∧
    ∃ d decision m e, (reconcile ⟨8, 5, ⟨300, 30⟩⟩ (.text "timer")).Gives (handle ⟨300, 30⟩)
        drifting decision d ∧
      d.server.seen .target = some m ∧ m.datum? "key" = some [1] ∧ m.datum? "salt" = some [2] ∧
      m.datum? "old" = none ∧ m.labels = .object [("tier", .text "control-plane")] ∧
      m.Annotates "note" (.text "kept") ∧ d.IsReady ∧ d.Passes e ∧
      Idles ⟨300, 30⟩ ⟨8, 5, ⟨300, 30⟩⟩ [(60, "timer")] d e := by
  have hrate : Time.isZero (Tuning.mk 8 5 ⟨300, 30⟩ : Tuning ℚ).rate = false := rfl
  have hlater : ∀ x ∈ [((60 : ℚ), "timer")], 0 ≤ x.1 := by decide +kernel
  constructor
  · obtain ⟨d, decision, hgives, hconverges, hready, hrests⟩ :=
      reconcile_converges ⟨300, 30⟩ hrate isReady_unmirrored "timer"
    obtain ⟨m, hm, hmirror⟩ := hconverges.created Example.describedSource rfl rfl
    obtain ⟨e, hpasses, hidles⟩ := hrests _ hlater
    refine ⟨d, decision, m, e, hgives, hm, hmirror.data, hmirror.managed,
      (hmirror.described _).2 ⟨_, .inl rfl, rfl⟩, fun v hv => ?_, hmirror.finalizers, hready,
      hpasses, hidles⟩
    exact absurd (hmirror.nothingElse "owner" v hv) (by decide)
  · obtain ⟨d, decision, hgives, hconverges, hready, hrests⟩ :=
      reconcile_converges ⟨300, 30⟩ hrate isReady_drifting "timer"
    obtain ⟨m, hm, hdata, hcontent⟩ :=
      hconverges.updated Example.describedSource Example.divergedTarget rfl rfl
      ⟨_, .inl rfl, rfl⟩
    obtain ⟨e, hpasses, hidles⟩ := hrests _ hlater
    refine ⟨d, decision, m, e, hgives, hm, hdata "key", hdata "salt", hdata "old", ?_, ?_, hready,
      hpasses, hidles⟩
    · rw [hcontent]
      rfl
    · rw [hcontent]
      exact ⟨_, .inl rfl, rfl⟩

end Cluster

end SecretMirror
