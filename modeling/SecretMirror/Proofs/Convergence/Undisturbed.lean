import SecretMirror.Cluster
import SecretMirror.Proofs.CacheView
import SecretMirror.Proofs.Deciding
import SecretMirror.Proofs.ExactTime
import SecretMirror.Proofs.Running

/-!
# Clusters in which nothing fails

In an undisturbed cluster (`Cluster.IsUndisturbed`) no call meets a disturbance and everything else
succeeds as well.  What a client reads under a key is `Server.seen`.  The cache is coherent at a key
if an entry there is too old to be handed out or shows what is stored now (`Cluster.Coherent`).

`Cluster.Later` and `Cluster.Passes` compare two states of a cluster between which the server did
not change; the second one also says that nothing was seen from outside but reads.  Being too old is
for good, so neither disturbs coherence.  `Cluster.Stores` is the effect of one write.
-/

namespace SecretMirror

open Operator Program

/-- A record as a server stores it under a key: it can be read, is about that key, its annotations
are an object if they are there, and its version equals itself. -/
structure WireSecret.IsServed (w : WireSecret) (key : Key) : Prop where
  read : ∃ s, Secret.ofWire w = .ok s
  own : Key.ofValues w.metadata.space w.metadata.name = .ok key
  annotations : w.metadata.annotations = .null ∨ ∃ fields, w.metadata.annotations = .object fields
  version : w.metadata.resourceVersion.same w.metadata.resourceVersion = true

namespace Cluster

/-- What a client reads under a key; nothing if the record there cannot be read. -/
def Server.seen (s : Server) (key : Key) : Option Secret :=
  (s.objects key).bind fun w => (Secret.ofWire w).toOption

/-- The calls that write, in order. -/
def Record.writes {τ : Type} (r : Record τ) : List Call :=
  r.calls.filter fun call => call.verb != .read

/-- No call is disturbed, nothing else fails, and calls do not turn the clock back. -/
structure IsUndisturbed {τ : Type} [Time τ] (c : Cluster τ) : Prop where
  disturbances : ∀ verb, c.disturbances verb = none
  clientFaults : ∀ source, c.clientFaults source = none
  eventFault : c.eventFault = none
  answersWrites : c.answersWrites = true
  latency : 0 ≤ c.latency

variable {τ : Type} [Time τ] {c d e : Cluster τ}

/-- An entry under the key is too old to be handed out, or shows what is stored. -/
def Coherent (c : Cluster τ) (key : Key) : Prop :=
  ∀ e, c.cache.find? key = some e →
    c.cache.isExpired e c.clock = true ∨ c.server.seen key = some e.secret

/-- Time has passed and the server is the same.  What was coherent is so still. -/
structure Later (c d : Cluster τ) : Prop where
  clock : c.clock ≤ d.clock
  server : d.server = c.server
  undisturbed : c.IsUndisturbed → d.IsUndisturbed
  coherent : ∀ key, c.Coherent key → d.Coherent key

/-- Time has passed and nothing was seen from outside but reads. -/
structure Passes (c d : Cluster τ) : Prop extends c.Later d where
  events : d.record.events = c.record.events
  writes : d.record.writes = c.record.writes

/-- A record has come to be stored under a key.  The other keys are as they were, in the store and
in the cache. -/
structure Stores (c : Cluster τ) (key : Key) (w : WireSecret) (d : Cluster τ) : Prop where
  clock : c.clock ≤ d.clock
  stored : d.server.objects key = some w
  others : ∀ other, other ≠ key → d.server.objects other = c.server.objects other
  undisturbed : c.IsUndisturbed → d.IsUndisturbed
  coherent : ∀ other, other ≠ key → c.Coherent other → d.Coherent other

/-! ## Time -/

/-- A key stays coherent while its entry and what is stored under it stay, or the entry goes. -/
theorem Coherent.of_le [Time.IsExact τ] {key : Key} (h : c.Coherent key)
    (hclock : c.clock ≤ d.clock) (hseen : d.server.seen key = c.server.seen key)
    (httl : d.cache.ttl = c.cache.ttl)
    (hfind : ∀ e, d.cache.find? key = some e → c.cache.find? key = some e) : d.Coherent key := by
  intro e he
  have hold := h e (hfind e he)
  rcases hold with hexpired | hshows
  · left
    have hlater := Cache.isExpired_mono hclock hexpired
    simpa only [Cache.isExpired, httl] using hlater
  · right
    rw [hseen]
    exact hshows

namespace Later

theorem refl [Time.IsExact τ] (c : Cluster τ) : c.Later c where
  clock := Time.le_refl c.clock
  server := rfl
  undisturbed h := h
  coherent _ h := h

theorem trans [Time.IsExact τ] (h : c.Later d) (h' : d.Later e) : c.Later e where
  clock := Time.IsExact.le_trans h.clock h'.clock
  server := h'.server.trans h.server
  undisturbed hc := h'.undisturbed (h.undisturbed hc)
  coherent key hc := h'.coherent key (h.coherent key hc)

theorem of_same_cache [Time.IsExact τ] (hclock : c.clock ≤ d.clock) (hserver : d.server = c.server)
    (hcache : d.cache = c.cache) (hundisturbed : c.IsUndisturbed → d.IsUndisturbed) :
    c.Later d where
  clock := hclock
  server := hserver
  undisturbed := hundisturbed
  coherent key h := by
    apply h.of_le hclock
    · rw [hserver]
    · rw [hcache]
    · intro e he
      rw [hcache] at he
      exact he

end Later

namespace Passes

theorem refl [Time.IsExact τ] (c : Cluster τ) : c.Passes c := ⟨.refl c, rfl, rfl⟩

theorem trans [Time.IsExact τ] (h : c.Passes d) (h' : d.Passes e) : c.Passes e where
  toLater := h.toLater.trans h'.toLater
  events := h'.events.trans h.events
  writes := h'.writes.trans h.writes

end Passes

namespace Stores

variable {key : Key} {w : WireSecret}

theorem of_later [Time.IsExact τ] (h : c.Later d) (h' : d.Stores key w e) : c.Stores key w e where
  clock := Time.IsExact.le_trans h.clock h'.clock
  stored := h'.stored
  others other hne := by rw [h'.others other hne, h.server]
  undisturbed hc := h'.undisturbed (h.undisturbed hc)
  coherent other hne hc := h'.coherent other hne (h.coherent other hc)

theorem later [Time.IsExact τ] (h : c.Stores key w d) (h' : d.Later e) : c.Stores key w e where
  clock := Time.IsExact.le_trans h.clock h'.clock
  stored := by rw [h'.server, h.stored]
  others other hne := by rw [h'.server, h.others other hne]
  undisturbed hc := h'.undisturbed (h.undisturbed hc)
  coherent other hne hc := h'.coherent other (h.coherent other hne hc)

end Stores

end Cluster

end SecretMirror
