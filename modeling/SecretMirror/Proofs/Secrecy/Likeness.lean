import SecretMirror.Operator.Access
import SecretMirror.Proofs.Relational
import SecretMirror.Proofs.CacheView
import SecretMirror.Proofs.Wire.RoundTrip
import Mathlib.Data.List.Forall2
import Mathlib.Data.Option.Basic

/-!
# Equal but for the bytes of data

Two secrets, records, caches or servers are alike if they are equal in everything except the bytes
of data values.  The relation says only what the operator can rely on: two alike secrets both have a
data section or both lack it, and the data sections of two alike records are both decodable or fail
in the same way.  Reading, writing and every operation of the cache and the server keep it.

Whether two secrets have equal data is not kept, so what is decided about them is alike only if the
answer to that one question is the same for both pairs (`alike_decide`).
-/

namespace SecretMirror

/-! ## Secrets -/

/-- The secrets are equal but for their data; both have a data section, or neither has one. -/
def Secret.Alike (s s' : Secret) : Prop :=
  ∃ data : Option Data, Option.Rel (fun _ _ => True) s.data data ∧ s' = { s with data := data }

/-- The records are equal but for their data; both data sections can be decoded, or neither can, for
the same reason. -/
def WireSecret.Alike (w w' : WireSecret) : Prop :=
  ∃ data : Value, Agree (fun _ _ => True) w.data.dataSection data.dataSection ∧
    w' = { w with data := data }

theorem Secret.Alike.refl (s : Secret) : s.Alike s := by
  refine ⟨s.data, ?_, rfl⟩
  cases s.data with
  | none => exact .none
  | some data => exact .some trivial

theorem WireSecret.Alike.refl (w : WireSecret) : w.Alike w :=
  ⟨w.data, .refl fun _ _ => trivial, rfl⟩

theorem Secret.Alike.key_eq {s s' : Secret} (h : s.Alike s') : s'.key = s.key := by
  obtain ⟨data, -, rfl⟩ := h
  rfl

theorem WireSecret.Alike.withVersion {w w' : WireSecret} (h : w.Alike w') (version : Value) :
    (w.withVersion version).Alike (w'.withVersion version) := by
  obtain ⟨data, hdata, rfl⟩ := h
  exact ⟨data, hdata, rfl⟩

theorem WireSecret.Alike.unversioned {w w' : WireSecret} (h : w.Alike w') :
    (Operator.WireSecret.unversioned w).Alike (Operator.WireSecret.unversioned w') := by
  obtain ⟨data, hdata, rfl⟩ := h
  exact ⟨data, hdata, rfl⟩

theorem Secret.alike_ofWire {w w' : WireSecret} (h : w.Alike w') :
    Agree Secret.Alike (ofWire w) (ofWire w') := by
  obtain ⟨section', hsection, rfl⟩ := h
  unfold ofWire
  refine hsection.bind fun data data' _ => ?_
  refine Agree.bind_same fun finalizers => ?_
  refine Agree.bind_same fun labels => ?_
  refine Agree.bind_same fun owners => ?_
  exact .ok ⟨some data', .some trivial, rfl⟩

theorem Secret.alike_toWire {s s' : Secret} (h : s.Alike s') :
    Agree WireSecret.Alike s.toWire s'.toWire := by
  obtain ⟨data', hdata, rfl⟩ := h
  unfold toWire
  refine Agree.bind_same fun finalizers => ?_
  refine Agree.bind_same fun labels => ?_
  refine Agree.bind_same fun owners => ?_
  generalize s.data = data at hdata ⊢
  cases hdata with
  | none => exact .error _
  | @some data data' _ =>
    refine .ok ⟨wireData data', ?_, rfl⟩
    rw [Value.dataSection_wireData, Value.dataSection_wireData]
    exact .ok trivial

theorem Secret.alike_sourceData {s s' : Secret} (h : s.Alike s') :
    Agree (fun _ _ => True) s.sourceData s'.sourceData := by
  obtain ⟨data', hdata, rfl⟩ := h
  unfold sourceData
  generalize s.data = data at hdata ⊢
  cases hdata with
  | none => exact .error _
  | some _ => exact .ok trivial

theorem Secret.alike_mirror {s s' : Secret} (h : s.Alike s') (name : Value) :
    Agree Secret.Alike (s.mirror name) (s'.mirror name) := by
  refine (alike_sourceData h).bind fun data data' _ => ?_
  obtain ⟨_, -, rfl⟩ := h
  exact .ok ⟨some data', .some trivial, rfl⟩

/-! ## Decisions -/

/-- The decisions are the same but for the data of what is to be written. -/
inductive Decision.Alike : Decision → Decision → Prop where
  | noOp (why : NoOpReason) : Alike (.noOp why) (.noOp why)
  | create {s s' : Secret} (h : s.Alike s') : Alike (.create s) (.create s')
  | update {s s' : Secret} (h : s.Alike s') : Alike (.update s) (.update s')

theorem Decision.Alike.action_eq {d d' : Decision} (h : d.Alike d') : d.action = d'.action := by
  cases h <;> rfl

theorem Decision.Alike.reason_eq {d d' : Decision} (h : d.Alike d') : d.reason = d'.reason := by
  cases h <;> rfl

/-- What is decided looks at the bytes of data only to see whether they are equal. -/
theorem alike_decide {s s' : Secret} {target target' : Option Secret} (hs : s.Alike s')
    (htarget : Option.Rel Secret.Alike target target')
    (hequal : ∀ t t', target = some t → target' = some t' →
      Data.equal t.data s.data = Data.equal t'.data s'.data) (name : Value) :
    Agree Decision.Alike (decide (some s) target name) (decide (some s') target' name) := by
  cases htarget with
  | none => exact (Secret.alike_mirror hs name).map fun _ _ h => .create h
  | @some t t' ht =>
    have hsame := hequal t t' rfl rfl
    obtain ⟨data, hdata, rfl⟩ := ht
    simp only [decide]
    have hmarker : ({ t with data := data } : Secret).isManaged = t.isManaged := rfl
    rw [hmarker, ← hsame]
    cases t.isManaged with
    | false => exact .ok (.noOp .foreign)
    | true =>
      cases Data.equal t.data s.data with
      | true => exact .ok (.noOp .inSync)
      | false =>
        refine (Secret.alike_sourceData hs).bind fun data data' _ => ?_
        exact .ok (.update ⟨some data', .some trivial, rfl⟩)

/-! ## The cache -/

namespace Cache

variable {τ : Type}

def AlikeEntries (e e' : Entry τ) : Prop := e.secret.Alike e'.secret ∧ e'.storedAt = e.storedAt

def AlikeSlots (slot slot' : Slot τ) : Prop :=
  ∃ entry, AlikeEntries slot.entry entry ∧ slot' = { slot with entry := entry }

/-- The caches are equal but for the data of what is stored. -/
structure Alike (c c' : Cache τ) : Prop where
  ttl : c'.ttl = c.ttl
  slots : List.Forall₂ AlikeSlots c.slots c'.slots

variable {c c' : Cache τ}

theorem alike_lookup {slots slots' : List (Slot τ)} (h : List.Forall₂ AlikeSlots slots slots')
    (key : Key) : Option.Rel AlikeEntries (lookup key slots) (lookup key slots') := by
  induction h with
  | nil => exact .none
  | cons hslot _ ih =>
    obtain ⟨entry, hentry, rfl⟩ := hslot
    simp only [lookup]
    split
    · exact .some hentry
    · exact ih

theorem alike_store {slots slots' : List (Slot τ)} (h : List.Forall₂ AlikeSlots slots slots')
    (key : Key) {e e' : Entry τ} (he : AlikeEntries e e') :
    List.Forall₂ AlikeSlots (store key e slots) (store key e' slots') := by
  induction h with
  | nil =>
    refine .cons ⟨e', he, ?_⟩ .nil
    obtain ⟨⟨data, -, hsecret⟩, -⟩ := he
    rw [hsecret]
  | cons hslot hrest ih =>
    obtain ⟨entry, hentry, rfl⟩ := hslot
    simp only [store]
    split
    · exact .cons ⟨e', he, rfl⟩ hrest
    · exact .cons ⟨entry, hentry, rfl⟩ ih

theorem Alike.forget (h : c.Alike c') (key : Key) : (c.forget key).Alike (c'.forget key) where
  ttl := h.ttl
  slots := List.rel_filter (fun _ _ ⟨_, _, hslot⟩ => by rw [hslot]) h.slots

theorem Alike.putOwn (h : c.Alike c') {s s' : Secret} (hs : s.Alike s') (now : τ) :
    Agree Alike (c.putOwn s now) (c'.putOwn s' now) := by
  unfold Cache.putOwn
  rw [hs.key_eq]
  exact Agree.bind_same fun key => .ok ⟨h.ttl, alike_store h.slots key ⟨hs, rfl⟩⟩

theorem Alike.forgetValues (h : c.Alike c') (space name : Value) :
    Agree Alike (c.forgetValues space name) (c'.forgetValues space name) := by
  have hempty : c'.slots.isEmpty = c.slots.isEmpty := by
    have hslots := h.slots
    generalize c.slots = slots, c'.slots = slots' at hslots ⊢
    cases hslots <;> rfl
  unfold Cache.forgetValues
  rw [hempty]
  split
  · exact .ok h
  · exact Agree.bind_same fun key => .ok (h.forget key)

theorem Alike.get [Time τ] (h : c.Alike c') (key : Key) (now : τ) :
    Option.Rel Secret.Alike (c.get key now).1 (c'.get key now).1 ∧
      (c.get key now).2.Alike (c'.get key now).2 := by
  have hfound := alike_lookup h.slots key
  unfold Cache.get find?
  generalize lookup key c.slots = found, lookup key c'.slots = found' at hfound ⊢
  cases hfound with
  | none => exact ⟨.none, h⟩
  | @some e e' he =>
    have hexpired : c'.isExpired e' now = c.isExpired e now := by
      rw [isExpired, isExpired, he.2, h.ttl]
    dsimp only
    rw [hexpired]
    split
    · exact ⟨.none, h.forget key⟩
    · exact ⟨.some he.1, h⟩

end Cache

/-! ## The server -/

namespace Cluster.Server

/-- The servers are equal but for the data of what is stored. -/
structure Alike (s s' : Server) : Prop where
  version : s'.version = s.version
  objects : ∀ key, Option.Rel WireSecret.Alike (s.objects key) (s'.objects key)

variable {s s' : Server}

theorem Alike.read (h : s.Alike s') (key : Key) :
    Agree WireSecret.Alike (s.read key) (s'.read key) := by
  have hfound := h.objects key
  unfold Server.read
  generalize s.objects key = found, s'.objects key = found' at hfound ⊢
  cases hfound with
  | none => exact .error _
  | some hw => exact .ok hw

theorem Alike.commit (h : s.Alike s') (key : Key) {body body' : WireSecret}
    (hbody : body.Alike body') : (s.commit key body).1.Alike (s'.commit key body').1 ∧
      (s.commit key body).2.Alike (s'.commit key body').2 := by
  unfold Server.commit
  rw [h.version]
  have hstored := hbody.withVersion (versionText (s.version + 1))
  refine ⟨hstored, rfl, fun other => ?_⟩
  dsimp only
  rw [objects_set, objects_set]
  split
  · exact .some hstored
  · exact h.objects other

theorem Alike.create (h : s.Alike s') (key : Key) {body body' : WireSecret}
    (hbody : body.Alike body') :
    Agree WireSecret.Alike (s.create key body).1 (s'.create key body').1 ∧
      (s.create key body).2.Alike (s'.create key body').2 := by
  have hfound := h.objects key
  unfold Server.create
  generalize s.objects key = found, s'.objects key = found' at hfound ⊢
  cases hfound with
  | none =>
    obtain ⟨hstored, hserver⟩ := h.commit key hbody
    exact ⟨.ok hstored, hserver⟩
  | some hold => exact ⟨.error _, h⟩

theorem Alike.replace (h : s.Alike s') (key : Key) {body body' : WireSecret}
    (hbody : body.Alike body') :
    Agree WireSecret.Alike (s.replace key body).1 (s'.replace key body').1 ∧
      (s.replace key body).2.Alike (s'.replace key body').2 := by
  have hfound := h.objects key
  unfold Server.replace
  generalize s.objects key = found, s'.objects key = found' at hfound ⊢
  cases hfound with
  | none => exact ⟨.error _, h⟩
  | @some old old' hold =>
    have hversions : body'.metadata.resourceVersion.same old'.metadata.resourceVersion =
        body.metadata.resourceVersion.same old.metadata.resourceVersion := by
      obtain ⟨_, -, hbody'⟩ := hbody
      obtain ⟨_, -, hold'⟩ := hold
      rw [hbody', hold']
    dsimp only
    rw [hversions]
    split
    · obtain ⟨hstored, hserver⟩ := h.commit key hbody
      exact ⟨.ok hstored, hserver⟩
    · exact ⟨.error _, h⟩

end Cluster.Server

end SecretMirror
