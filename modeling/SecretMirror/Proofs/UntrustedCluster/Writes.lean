import SecretMirror.Proofs.Convergence
import SecretMirror.Proofs.CachingContract
import SecretMirror.Proofs.UntrustedCluster

/-!
# What activities write and cache

What an activity does is up to what it has learnt by its own exchanges, and to the watch event that
it handles, if any.  `sourcedWrites` is the contract that says so: what it writes is addressed to
the mirror and carries the data of a canonical secret that it has found; and a copy of the canonical
secret that it caches was read by it, or told by its event.  Every activity keeps this contract,
provided that answers are about what was asked for (`behaves_activity`).

What is known to a thread here is the set of its exchanges so far, so a contract that is kept from
the start can be read off at any point of its way (`Program.Keeps.of_follows`).
-/

namespace SecretMirror

open Operator
open Program hiding bind ask

/-- Wherever exchanges have led a program that keeps a contract, it goes on to keep it, and the
exchanges are known. -/
theorem Program.Keeps.of_follows {σ : Signature} {ε α : Type}
    {c : Contract σ ε (Set (Exchange σ ε))} {H : Exchange σ ε → Prop}
    (hexpects : ∀ k q a, (⟨q, a⟩ : Exchange σ ε) ∈ k → H ⟨q, a⟩ → c.expects k q a)
    {p q : Program σ ε α} {xs : List (Exchange σ ε)} {k : Set (Exchange σ ε)}
    (hp : p.Behaves c k) (h : p.Follows xs q) (hxs : ∀ x ∈ xs, H x) :
    q.Behaves c (k ∪ {x | x ∈ xs}) := by
  induction h generalizing k with
  | none p => exact hp.later Set.subset_union_left
  | @next q next a xs p _ ih =>
    have hle : k ≤ k ∪ {⟨q, a⟩} := Set.subset_union_left
    have hknown : (⟨q, a⟩ : Exchange σ ε) ∈ k ∪ {⟨q, a⟩} := Set.mem_union_right _ rfl
    have hnext := (hp _ hle).2 a (hexpects _ q a hknown (hxs _ List.mem_cons_self))
    refine (ih hnext fun x hx => hxs x (List.mem_cons_of_mem _ hx)).later ?_
    rintro x ((hx | rfl) | hx)
    · exact Set.mem_union_left _ hx
    · exact Set.mem_union_right _ List.mem_cons_self
    · exact Set.mem_union_right _ (List.mem_cons_of_mem _ hx)

/-! ## Addresses -/

theorem Value.eq_text_of_atom? {v : Value} {s : String} (h : v.atom? = some (.text s)) :
    v = .text s := by
  cases v with
  | text t =>
    cases h
    rfl
  | double x =>
    simp only [Value.atom?, Option.some.injEq] at h
    split at h <;> cases h
  | _ => cases h

theorem Secret.texts_of_key {s : Secret} {space name : String}
    (h : s.key = .ok (.ofTexts space name)) : s.space = .text space ∧ s.name = .text name := by
  unfold Secret.key Key.ofValues at h
  split at h
  · next hspace hname =>
    cases h
    exact ⟨Value.eq_text_of_atom? hspace, Value.eq_text_of_atom? hname⟩
  · cases h
  · cases h

theorem Secret.key_of_ofWire {w : WireSecret} {s : Secret} (h : Secret.ofWire w = .ok s) :
    s.key = Key.ofValues w.metadata.space w.metadata.name := by
  obtain ⟨_, _, _, _, -, -, -, -, rfl⟩ := Secret.ofWire_eq_ok_iff.1 h
  rfl

/-- The write is addressed to the mirror, and so is what it carries. -/
structure Operator.Write.IsToMirror (w : Write) : Prop where
  space : w.space = .text Names.configNamespace
  name : w.name = .text Names.target
  bodySpace : w.body.metadata.space = .text Names.configNamespace
  bodyName : w.body.metadata.name = .text Names.target

/-! ## What was learnt -/

section

variable {τ : Type}

/-- What a request has brought, and under which key. -/
def finding? : Exchange (requests τ) (Fault τ) → Option (Key × Secret)
  | ⟨.cacheGet key, .ok (some s)⟩ => some (key, s)
  | ⟨.read space name, .ok w⟩ =>
    match Key.ofValues space name, Secret.ofWire w with
    | .ok key, .ok s => some (key, s)
    | _, _ => none
  | _ => none

/-- The secret was found under a key, in the cache or by reading it. -/
def Found (xs : Set (Exchange (requests τ) (Fault τ))) (key : Key) (s : Secret) : Prop :=
  ∃ x ∈ xs, finding? x = some (key, s)

/-- The secret was read under a key, through the API and not from the cache. -/
def HasRead (xs : Set (Exchange (requests τ) (Fault τ))) (key : Key) (s : Secret) : Prop :=
  ∃ space name w, (⟨.read space name, .ok w⟩ : Exchange (requests τ) (Fault τ)) ∈ xs ∧
    Key.ofValues space name = .ok key ∧ Secret.ofWire w = .ok s

/-- If it is a copy of the canonical secret, then it was read or told. -/
def Learnt (told : Secret → Prop) (xs : Set (Exchange (requests τ) (Fault τ))) (s : Secret) :
    Prop :=
  s.key = .ok .source → HasRead xs .source s ∨ told s

variable {xs ys : Set (Exchange (requests τ) (Fault τ))} {key : Key} {s : Secret}
  {told : Secret → Prop}

theorem Found.mono (hle : xs ≤ ys) (h : Found xs key s) : Found ys key s := by
  obtain ⟨x, hx, hfinding⟩ := h
  exact ⟨x, hle hx, hfinding⟩

theorem Learnt.mono (hle : xs ≤ ys) (h : Learnt told xs s) : Learnt told ys s := by
  intro hkey
  rcases h hkey with ⟨space, name, w, hmem, hread⟩ | htold
  · exact .inl ⟨space, name, w, hle hmem, hread⟩
  · exact .inr htold

theorem found_of_cacheGet
    (h : (⟨.cacheGet key, .ok (some s)⟩ : Exchange (requests τ) (Fault τ)) ∈ xs) :
    Found xs key s :=
  ⟨_, h, rfl⟩

theorem HasRead.found (h : HasRead xs key s) : Found xs key s := by
  obtain ⟨space, name, w, hmem, hkey, hread⟩ := h
  refine ⟨_, hmem, ?_⟩
  simp only [finding?, hkey, hread]

/-- What was found was cached or read. -/
theorem Found.cases (h : Found xs key s) :
    (⟨.cacheGet key, .ok (some s)⟩ : Exchange (requests τ) (Fault τ)) ∈ xs ∨
      HasRead xs key s := by
  obtain ⟨x, hx, hfinding⟩ := h
  unfold finding? at hfinding
  split at hfinding
  · cases hfinding
    exact .inl hx
  · next space name w =>
    split at hfinding
    · next hkey hread =>
      cases hfinding
      exact .inr ⟨space, name, w, hx, hkey, hread⟩
    · cases hfinding
  · cases hfinding

end

/-- What an activity may ask after its exchanges so far, given what its event has told.  Writes go
to the mirror with the data of a canonical secret that was found, and a copy of the canonical secret
is cached only if it was learnt. -/
def sourcedWrites {τ : Type} (told : Secret → Prop) :
    Contract (requests τ) (Fault τ) (Set (Exchange (requests τ) (Fault τ))) where
  permits xs
    | .cachePut s => Learnt told xs s
    | q => ∀ w, q.write? = some w → w.IsToMirror ∧ ∃ s, Found xs .source s ∧ w.body.Carries s
  expects xs q a := (⟨q, a⟩ : Exchange (requests τ) (Fault τ)) ∈ xs ∧
    IsHonest (⟨q, a⟩ : Exchange (requests τ) (Fault τ))

section

variable {τ : Type} {told : Secret → Prop} {xs : Set (Exchange (requests τ) (Fault τ))}

theorem permitsCaching_sourcedWrites (told : Secret → Prop) :
    (sourcedWrites told : Contract (requests τ) (Fault τ) _).PermitsCaching (Learnt told) where
  free _ q hq := by
    cases q with
    | cachePut s => exact hq.elim
    | create space body => exact hq.elim
    | replace space name body => exact hq.elim
    | _ => exact nofun
  put _ _ hs := hs
  mono hle hs := hs.mono hle

theorem learnt_of_key {s : Secret} (h : s.key = .ok .target) : Learnt told xs s := by
  intro hsource
  rw [h] at hsource
  cases hsource

variable [Time τ]

/-! ## Writes -/

section Writes

variable {secret s : Secret} (hspace : secret.space = .text Names.configNamespace)
  (hname : secret.name = .text Names.target) (hdata : secret.data = s.data)

include hspace hname

omit [Time τ] in
theorem learnt_of_answer {raw : Option WireSecret}
    (hraw : ∀ w, raw = some w → WireSecret.HasAddress w secret.space secret.name) :
    (∀ w stored, raw = some w → Secret.ofWire w = .ok stored → Learnt told xs stored) ∧
      (raw = none → Learnt told xs secret) := by
  have hkey : secret.key = .ok .target := by
    rw [Secret.key, hspace, hname]
    rfl
  constructor
  · intro w stored hw hread
    refine learnt_of_key ?_
    rw [Secret.key_of_ofWire hread]
    exact (hraw w hw).trans hkey
  · exact fun _ => learnt_of_key hkey

include hdata

omit [Time τ] in
theorem isToMirror_of_toWire {body : WireSecret} (hbody : secret.toWire = .ok body)
    (hfound : Found xs .source s) :
    (⟨secret.space, secret.name, body⟩ : Write).IsToMirror ∧
      ∃ s, Found xs .source s ∧ body.Carries s := by
  obtain ⟨hbodyName, hbodySpace, -⟩ := Secret.of_toWire hbody
  refine ⟨⟨hspace, hname, ?_, ?_⟩, s, hfound, carries_of_toWire hdata hbody⟩
  · exact hbodySpace.trans hspace
  · exact hbodyName.trans hname

theorem UntrustedCluster.behaves_create (hfound : Found xs .source s) (rate : τ) :
    (Operator.create rate secret).Behaves (sourcedWrites told) xs := by
  unfold Operator.create
  refine keeps_bind (P := fun _ body => secret.toWire = .ok body)
    (keeps_checked fun body hbody _ _ => hbody) fun l₁ h₁ body hbody => ?_
  obtain ⟨hbodyName, -, -⟩ := Secret.of_toWire hbody
  refine (permitsCaching_sourcedWrites told).write (fun l₂ h₂ => keeps_request (fun l₃ h₃ => ?_)
    fun l₃ _ raw hraw l₄ _ => ?_) rate
  · rintro w ⟨⟩
    have hle : xs ≤ l₃ := h₁.trans (h₂.trans h₃)
    obtain ⟨⟨-, -, hbodySpace, hname'⟩, hcarries⟩ :=
      isToMirror_of_toWire hspace hname hdata hbody (hfound.mono hle)
    exact ⟨⟨hspace, hname', hbodySpace, hname'⟩, hcarries⟩
  · refine learnt_of_answer hspace hname fun w hw => ?_
    subst hw
    obtain ⟨-, haddress⟩ := hraw
    rw [← hbodyName]
    exact haddress

theorem UntrustedCluster.behaves_update (hfound : Found xs .source s) (rate : τ) :
    (Operator.update rate secret).Behaves (sourcedWrites told) xs := by
  unfold Operator.update
  refine (permitsCaching_sourcedWrites told).write (fun l₁ h₁ => ?_) rate
  refine keeps_bind (P := fun _ body => secret.toWire = .ok body)
    (keeps_checked fun body hbody _ _ => hbody) fun l₂ h₂ body hbody => ?_
  refine keeps_request (fun l₃ h₃ => ?_) fun l₃ _ raw hraw l₄ _ => ?_
  · rintro w ⟨⟩
    exact isToMirror_of_toWire hspace hname hdata hbody (hfound.mono (h₁.trans (h₂.trans h₃)))
  · refine learnt_of_answer hspace hname fun w hw => ?_
    subst hw
    exact hraw.2

end Writes

namespace UntrustedCluster

/-! ## Activities -/

/-- A look-up of the canonical secret finds it, and nothing else. -/
theorem keeps_lookUp_source (rate : τ) (xs : Set (Exchange (requests τ) (Fault τ))) :
    (lookUp rate (.text Names.configNamespace) (.text Names.source)).Keeps (sourcedWrites told)
      (fun l found => ∀ s, found = some s → Found l .source s ∧ s.key = .ok .source) xs := by
  refine (permitsCaching_sourcedWrites told).finds_lookUp
    (P := fun l s => Found l .source s ∧ s.key = .ok .source)
    (fun hle h => ⟨h.1.mono hle, h.2⟩) _ _ (fun l key s hkey hs => ?_) (fun l w s hw hread => ?_)
    rate
  · cases hkey
    exact ⟨found_of_cacheGet hs.1, hs.2⟩
  · have hhas : HasRead l .source s := ⟨_, _, w, hw.1, rfl, hread⟩
    refine ⟨fun _ => .inl hhas, hhas.found, ?_⟩
    rw [Secret.key_of_ofWire hread]
    exact hw.2

theorem keeps_lookUp_target (rate : τ) (xs : Set (Exchange (requests τ) (Fault τ))) :
    (lookUp rate (.text Names.configNamespace) (.text Names.target)).Keeps (sourcedWrites told)
      (fun _ found => ∀ s, found = some s → s.key = .ok .target) xs := by
  refine (permitsCaching_sourcedWrites told).finds_lookUp (P := fun _ s => s.key = .ok .target)
    (fun _ h => h)
    _ _ (fun l key s hkey hs => ?_) (fun l w s hw hread => ?_) rate
  · cases hkey
    exact hs.2
  · have hkey : s.key = .ok .target := by
      rw [Secret.key_of_ofWire hread]
      exact hw.2
    exact ⟨learnt_of_key hkey, hkey⟩

/-- What is decided is done to the mirror, with the data of the canonical secret that was found. -/
theorem behaves_perform {s : Secret} {target : Option Secret} {decision : Decision}
    (hdecides : Decides (.text Names.target) (some s) target decision)
    (hfound : Found xs .source s) (hsource : s.key = .ok .source)
    (htarget : ∀ t, target = some t → t.key = .ok .target) (rate : τ) :
    (perform rate {} decision).Behaves (sourcedWrites told) xs := by
  have hpost : ∀ (event : Operator.Event) (l : Set (Exchange (requests τ) (Fault τ))),
      (ask (.post event)).Behaves (sourcedWrites told) l := fun _ _ => behaves_request fun _ _ =>
      nofun
  cases hdecides with
  | @create _ r hmirror =>
    have hr := Cluster.isMirrorOf_of_mirror hmirror
    have hspace : r.space = .text Names.configNamespace := by
      rw [hr.space]
      exact (Secret.texts_of_key hsource).1
    rw [perform_create]
    exact behaves_bind (behaves_create hspace hr.name hr.data hfound rate) fun l _ _ => hpost _ l
  | foreign _ hmarker => exact keeps_pure fun _ _ => trivial
  | inSync hmarker hequal => exact keeps_pure fun _ _ => trivial
  | @update _ t data hmarker hdiffers hdata =>
    obtain ⟨hspace, hname⟩ := Secret.texts_of_key (htarget t rfl)
    have hspace' : ({ t with data := some data } : Secret).space = .text Names.configNamespace :=
      hspace
    have hname' : ({ t with data := some data } : Secret).name = .text Names.target := hname
    rw [perform_update]
    exact behaves_bind (behaves_update hspace' hname' hdata.symm hfound rate) fun l _ _ => hpost _ l

theorem behaves_sync (rate : τ) (xs : Set (Exchange (requests τ) (Fault τ))) :
    (sync rate {}).Behaves (sourcedWrites told) xs := by
  rw [sync_eq]
  refine keeps_bind (keeps_lookUp_source rate xs) fun l₁ _ source? hsource => ?_
  cases source? with
  | none => exact keeps_checked fun _ _ _ _ => trivial
  | some s =>
    obtain ⟨hfound, hkey⟩ := hsource s rfl
    refine keeps_bind (keeps_lookUp_target rate l₁) fun l₂ h₂ target htarget => ?_
    refine keeps_bind (P := fun _ decision => Decides (.text Names.target) (some s) target decision)
      (keeps_checked fun decision hdecision _ _ => decides_of_decide hdecision)
      fun l₃ h₃ decision hdecides => ?_
    exact behaves_bind (behaves_perform hdecides (hfound.mono (h₂.trans h₃)) hkey htarget rate)
      fun _ _ _ => keeps_pure fun _ _ => trivial

theorem behaves_reconcile (tuning : Tuning τ) (trigger : Value)
    (xs : Set (Exchange (requests τ) (Fault τ))) :
    (reconcile tuning trigger).Behaves (sourcedWrites told) xs :=
  (permitsCaching_sourcedWrites told).reconcile (fun l _ => behaves_sync tuning.rate l) trigger

/-- Whatever is done around the schedule, only reconciliations write. -/
theorem behaves_embed (tuning : Tuning τ) (q : (Resync.requests τ).Request)
    (xs : Set (Exchange (requests τ) (Fault τ))) : (embed tuning q).Behaves (sourcedWrites told)
    xs := by
  cases q with
  | schedule step => exact (permitsCaching_sourcedWrites told).ask trivial
  | now => exact (permitsCaching_sourcedWrites told).ask trivial
  | pause time => exact (permitsCaching_sourcedWrites told).ask trivial
  | reconcile trigger =>
    exact behaves_bind (behaves_reconcile tuning trigger xs) fun _ _ _ =>
      keeps_pure fun _ _ => trivial

omit [Time τ] in
theorem behaves_observe (eventType body name space : Value)
    (htold : ∀ s, eventType.text? ≠ some "DELETED" ∧ Secret.ofBody body = .ok s → told s)
    (xs : Set (Exchange (requests τ) (Fault τ))) :
    (observe (τ := τ) eventType body name space).Behaves (sourcedWrites told) xs := by
  unfold observe
  split
  · exact (permitsCaching_sourcedWrites told).ask trivial
  · next hdeleted =>
    refine keeps_bind (P := fun _ s => Secret.ofBody body = .ok s)
      (keeps_checked fun s hs _ _ => hs) fun _ _ s hs => ?_
    exact behaves_request fun _ _ _ => .inr (htold s ⟨hdeleted, hs⟩)

/-- Every activity about the two secrets of the operator keeps the contract. -/
theorem behaves_activity {activity : Activity τ} (hwatched : activity.IsOfOperator) :
    activity.program.Behaves (sourcedWrites activity.Tells) ∅ := by
  cases activity with
  | sync rate places =>
    obtain rfl : places = {} := hwatched
    exact behaves_bind (behaves_sync rate ∅) fun _ _ _ => keeps_pure fun _ _ => trivial
  | reconcile tuning trigger =>
    exact behaves_bind (behaves_reconcile tuning trigger ∅) fun _ _ _ =>
      keeps_pure fun _ _ => trivial
  | observe eventType body name space => exact behaves_observe _ _ _ _ (fun _ hs => hs) ∅
  | handle tuning eventType body name space =>
    exact behaves_bind (behaves_observe _ _ _ _ (fun _ hs => hs) ∅) fun _ _ _ =>
      behaves_interpret fun q l _ => behaves_embed tuning q l
  | tick tuning =>
    exact behaves_bind (behaves_interpret fun q l _ => behaves_embed tuning q l) fun _ _ _ =>
      keeps_pure fun _ _ => trivial

end UntrustedCluster

end

end SecretMirror
