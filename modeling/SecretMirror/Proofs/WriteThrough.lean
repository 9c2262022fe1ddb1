import SecretMirror.Proofs.TimedCache

/-!
# Writing past the cache

A write goes to the API, whatever is cached, so the entry under its key may be of a version that is
then overwritten.  It does not stay there (`TimedCache.WritesThrough`).  If the write returns, the
key holds what it returns, as of now.  If the write fails, be it before its turn or by what the API
says, the key holds nothing, for the API may have stored the secret all the same.

This goes for both operations, though they make the record that they send at different times: a
create before it waits for its turn, an update when it has had it.  In either case the record of a
well-formed secret is there to be sent, whatever its annotations are.
-/

namespace SecretMirror

open Operator
open Program hiding bind ask

namespace Operator

variable {τ : Type}

/-- The call that an operation makes with a record of the secret. -/
def Operation.exchange (secret : Secret) (body : WireSecret) :
    Operation → Except (Fault τ) (Option WireSecret) → Exchange (requests τ) (Fault τ)
  | .create, a => ⟨.create secret.space (WireSecret.unversioned body), a⟩
  | .update, a => ⟨.replace secret.space secret.name body, a⟩

/-- The version that an operation sends.  A creation sends none, so that the server assigns one. -/
def Operation.version (secret : Secret) : Operation → Value
  | .create => .null
  | .update => secret.resourceVersion

def Operation.perform [Time τ] (rate : τ) (secret : Secret) : Operation → Task τ Secret
  | .create => Operator.create rate secret
  | .update => Operator.update rate secret

/-- What is sent is a record with the version that the operation sends. -/
theorem Operation.exists_write (operation : Operation) {secret : Secret} {body : WireSecret}
    (hbody : secret.toWire = .ok body) (a : Except (Fault τ) (Option WireSecret)) :
    ∃ w, (operation.exchange secret body a).request.write? = some w ∧
      w.body.metadata.resourceVersion = operation.version secret := by
  obtain ⟨data, finalizers, labels, owners, -, -, -, -, rfl⟩ := Secret.toWire_eq_ok_iff.1 hbody
  cases operation with
  | create => exact ⟨_, rfl, rfl⟩
  | update => exact ⟨_, rfl, rfl⟩

/-- If a write is answered with an object, this can be read as a secret with the key. -/
def AnswersUnder (key : Key) : Exchange (requests τ) (Fault τ) → Prop
  | ⟨.create .., .ok (some w)⟩ => ∃ stored, Secret.ofWire w = .ok stored ∧ stored.key = .ok key
  | ⟨.replace .., .ok (some w)⟩ => ∃ stored, Secret.ofWire w = .ok stored ∧ stored.key = .ok key
  | _ => True

end Operator

namespace TimedCache

variable {τ S : Type} [Time τ]

/-- What a write makes of the answer to its call, and what is cached under its key then. -/
inductive Settles (secret : Secret) (key : Key) (s t : TimedCache τ) :
    Except (Fault τ) (Option WireSecret) → Except (Fault τ) Secret → Prop where
  | stored {raw : Option WireSecret} {stored : Secret} (hstored : IsStored secret raw stored)
    (hleaves : s.Leaves key (some ⟨stored, t.clock⟩) t) :
    Settles secret key s t (.ok raw) (.ok stored)
  | failed {fault : Fault τ} (hleaves : s.Leaves key none t) :
    Settles secret key s t (.error fault) (.error fault)

/-- The call is attempted, and what it comes to settles what is returned and cached. -/
def WritesThrough (rate : τ)
    (call : Except (Fault τ) (Option WireSecret) → Exchange (requests τ) (Fault τ))
    (secret : Secret) (key : Key) (s : TimedCache τ) (xs : List (Exchange (requests τ) (Fault τ)))
    (r : Except (Fault τ) Secret) (t : TimedCache τ) : Prop :=
  ∃ a, Attempts rate call xs a ∧ Settles secret key s t a r

/-- A call has come to this.  If it was not answered, nothing is cached under the key any more. -/
def Clears (key : Key) (s t : TimedCache τ) : Except (Fault τ) (Option WireSecret) → Prop
  | .ok _ => t.cache = s.cache
  | .error _ => s.Leaves key none t

/-- What the call answers counts as a secret under the key. -/
def StoresUnder (secret : Secret) (key : Key) (raw : Option WireSecret) : Prop :=
  ∃ stored, IsStored secret raw stored ∧ stored.key = .ok key

omit [Time τ] in
theorem StoresUnder.of_answersUnder {secret : Secret} {key : Key} {operation : Operation}
    {body : WireSecret} {raw : Option WireSecret} (hkey : secret.key = .ok key)
    (h : AnswersUnder key (operation.exchange (τ := τ) secret body (.ok raw))) :
    StoresUnder secret key raw := by
  cases raw with
  | some w =>
    cases operation with
    | create => exact h
    | update => exact h
  | none => exact ⟨secret, rfl, hkey⟩

section

variable {rate : τ} {secret : Secret} {key : Key} {s t : TimedCache τ}
  {call : Except (Fault τ) (Option WireSecret) → Exchange (requests τ) (Fault τ)}
  {xs : List (Exchange (requests τ) (Fault τ))}

/-- What follows a failed write passes its fault on and drops what is cached under its key. -/
theorem leads_writeFailure (operation : Operation) (hkey : secret.key = .ok key)
    (fault : Fault τ) : (writeFailure operation secret fault).Leads medium s fun xs r t =>
      callsIn xs = [] ∧ r = .error fault ∧ s.Leaves key none t := by
  refine leads_count_bind fun xs t hcalled => leads_count_bind fun ys u hwritten => ?_
  refine leads_bind (leads_cacheForget hkey) ?_ ?_
  · rintro zs _ v ⟨hcalls, -, hleaves⟩
    refine leads_done ⟨?_, rfl, hleaves.congr_start (hcalled.trans hwritten).cache⟩
    rw [List.append_nil, hcalled.callsIn_append, hwritten.callsIn_append, hcalls]
  · rintro zs _ v ⟨-, ⟨⟩, -⟩

theorem concludeWrite_of_isStored (operation : Operation) {raw : Option WireSecret}
    {stored : Secret} (hstored : IsStored secret raw stored) :
    (concludeWrite operation secret raw : Task τ Secret) = do
      count (.apiCalls operation.callName "success")
      count (.writes operation.name "success")
      ask (.cachePut stored)
      return stored := by
  cases raw with
  | some w =>
    have hread : Secret.ofWire w = .ok stored := hstored
    dsimp only [concludeWrite]
    rw [hread]
    rfl
  | none =>
    obtain rfl : stored = secret := hstored
    rfl

/-- What follows a write that was answered caches what counts as stored, and returns it. -/
theorem leads_concludeWrite (operation : Operation) {raw : Option WireSecret}
    (hstores : StoresUnder secret key raw) :
    (concludeWrite operation secret raw).Leads medium s fun xs r t => callsIn xs = [] ∧
      ∃ stored, IsStored secret raw stored ∧ r = .ok stored ∧
        s.Leaves key (some ⟨stored, t.clock⟩) t := by
  obtain ⟨stored, hstored, hkey⟩ := hstores
  rw [concludeWrite_of_isStored operation hstored]
  refine leads_count_bind fun xs t hcalled => leads_count_bind fun ys u hwritten => ?_
  refine leads_bind (leads_cachePut hkey) ?_ ?_
  · rintro zs _ v ⟨hcalls, -, hleaves⟩
    refine leads_done ⟨?_, stored, hstored, rfl, ?_⟩
    · rw [List.append_nil, hcalled.callsIn_append, hwritten.callsIn_append, hcalls]
    · exact hleaves.congr_start (hcalled.trans hwritten).cache
  · rintro zs _ v ⟨-, ⟨⟩, -⟩

theorem leads_attempted (rate : τ) (operation : Operation) (hkey : secret.key = .ok key)
    {program : Task τ (Option WireSecret)} (start : τ)
    (hprogram : ∀ s, program.Leads medium s fun xs a t =>
      callsIn xs = [call a] ∧ t.cache = s.cache) :
    (((spaced rate program).recover (writeFailure operation secret)).always
      (measureSince start (.apiCallTime operation.callName))).Leads medium s fun xs a t =>
        Attempts rate call xs a ∧ Clears key s t a := by
  have hrecovered : ((spaced rate program).recover (writeFailure operation secret)).Leads medium s
      fun xs a t => Attempts rate call xs a ∧ Clears key s t a := by
    refine leads_recover (leads_spaced rate hprogram) ?_ ?_
    · rintro xs raw t ⟨hattempts, hcache⟩
      exact ⟨hattempts, hcache⟩
    · rintro xs fault t ⟨hattempts, hcache⟩
      refine (leads_writeFailure operation hkey fault).imp ?_
      rintro ys a u ⟨hcalls, rfl, hleaves⟩
      exact ⟨hattempts.append hcalls, hleaves.congr_start hcache⟩
  refine leads_always hrecovered ?_
  rintro xs a t ⟨hattempts, hclears⟩
  refine (leads_measureSince start _).imp ?_
  rintro ys _ u ⟨hrests, rfl⟩
  refine ⟨rfl, hattempts.append hrests.calls, ?_⟩
  cases a with
  | ok raw => exact hrests.cache.trans hclears
  | error fault => exact Leaves.congr_end hclears hrests.cache

/-- A write settles its key, as long as what the API answers counts as a secret under it. -/
theorem leads_write (rate : τ) (operation : Operation) (hkey : secret.key = .ok key)
    {program : Task τ (Option WireSecret)}
    (hprogram : ∀ s, program.Leads medium s fun xs a t =>
      callsIn xs = [call a] ∧ t.cache = s.cache) :
    (write rate operation secret program).Leads medium s fun xs r t =>
      (∀ raw, call (.ok raw) ∈ xs → StoresUnder secret key raw) →
        WritesThrough rate call secret key s xs r t := by
  refine leads_now_bind fun xs start t hstarted => ?_
  refine leads_bind (leads_attempted rate operation hkey start hprogram) ?_ ?_
  · rintro ys raw u ⟨hattempts, hcache⟩
    by_cases hstores : StoresUnder secret key raw
    · refine (leads_concludeWrite operation hstores).imp ?_
      rintro zs r v ⟨hcalls, stored, hstored, rfl, hleaves⟩ -
      refine ⟨.ok raw, (hattempts.append hcalls).prepend hstarted.calls, .stored hstored ?_⟩
      exact hleaves.congr_start (hcache.trans hstarted.cache)
    · -- Other answers are ruled out by the hypothesis on what was exchanged.
      intro zs r v _ _ hanswers
      refine absurd (hanswers raw ?_) hstores
      exact List.mem_append_right _ (List.mem_append_left _ hattempts.mem_of_ok)
  · rintro ys fault u ⟨hattempts, hleaves⟩ -
    exact ⟨.error fault, hattempts.prepend hstarted.calls,
      .failed (Leaves.congr_start hleaves hstarted.cache)⟩

/-- Either operation writes through with the record of the secret. -/
theorem leads_perform (rate : τ) (operation : Operation) {body : WireSecret}
    (hkey : secret.key = .ok key) (hbody : secret.toWire = .ok body) :
    (operation.perform rate secret).Leads medium s fun xs r t =>
      (∀ raw, operation.exchange secret body (.ok raw) ∈ xs → StoresUnder secret key raw) →
        WritesThrough rate (operation.exchange secret body) secret key s xs r t := by
  have hmade : checked secret.toWire = (pure body : Task τ WireSecret) := by
    rw [hbody]
    rfl
  cases operation with
  | create =>
    rw [Operation.perform, Operator.create, hmade, pure_bind]
    exact leads_write rate .create hkey fun s => leads_request fun a t h => ⟨rfl, h.2⟩
  | update =>
    rw [Operation.perform, Operator.update, hmade, pure_bind]
    exact leads_write rate .update hkey fun s => leads_request fun a t h => ⟨rfl, h.2⟩

end

/-- For a well-formed secret there is a record, and a write makes at most one call with it, which
carries the version of the secret in an update and none in a create.  If the call is answered, what
counts as stored is returned and cached under the key, as of now.  If it fails, or if there is no
turn to be had for it, that fault is passed on, and nothing is cached under the key.  Other keys are
not touched. -/
theorem write_settles (W : Handler τ S) (rate : τ) (operation : Operation) (s : S) {secret : Secret}
    {key : Key} (hshape : secret.IsRead) (hkey : secret.key = .ok key)
    (hanswers : ∀ x ∈ (operation.perform rate secret).trace W.handle s, AnswersUnder key x) :
    let xs := (operation.perform rate secret).trace W.handle s
    let r := ((operation.perform rate secret).run W.handle s).1
    let t := W.timedCache ((operation.perform rate secret).run W.handle s).2
    (∃ body, secret.toWire = .ok body ∧
        WritesThrough rate (operation.exchange secret body) secret key (W.timedCache s) xs r t) ∧
      (callsIn xs).length ≤ 1 ∧
      ∀ x ∈ callsIn xs, ∃ w, x.request.write? = some w ∧
        w.body.metadata.resourceVersion = operation.version secret := by
  obtain ⟨body, hbody, -⟩ := Secret.ofWire_toWire hshape
  have hwrites := W.leads (leads_perform (s := W.timedCache s) rate operation hkey hbody)
    fun raw hraw => .of_answersUnder hkey (hanswers _ hraw)
  obtain ⟨a, hattempts, hsettles⟩ := hwrites
  refine ⟨⟨body, hbody, a, hattempts, hsettles⟩, hattempts.length_callsIn_le, fun x hx => ?_⟩
  obtain rfl := hattempts.eq_of_mem_callsIn hx
  exact operation.exists_write hbody a

namespace Example

/-- A secret whose annotations have lost their shape. -/
def sent : Secret :=
  { name := .text "config", space := .text "apps", annotations := .text "none"
    resourceVersion := .text "1" }

/-- What the API makes of it. -/
def answer : WireSecret :=
  { metadata := { name := .text "config", space := .text "apps", resourceVersion := .text "2" } }

/-- The API answers every write so. -/
def writing : Handler ℚ (TimedCache ℚ) := .steady (.ok answer) (.ok (some answer))

/-- The secret is cached as it was read ten seconds ago. -/
def stale : TimedCache ℚ := ⟨1000, Cache.put { ttl := 30 } (.ofTexts "apps" "config") sent 990⟩

theorem answersUnder_writing : ∀ x ∈ (Operation.update.perform 8 sent).trace writing.handle stale,
    AnswersUnder (.ofTexts "apps" "config") x := by
  refine forall_mem_trace (fun q s => ?_) _ stale
  cases q <;> first | exact ⟨_, rfl, rfl⟩ | exact trivial

end Example

open TimedCache.Example in
/-- An update takes the place of what was read ten seconds ago. -/
theorem write_settles_stale :
    stale.cache.find? (.ofTexts "apps" "config") = some ⟨sent, 990⟩ ∧
      ∃ (stored : Secret) (t : TimedCache ℚ),
        (Operation.update.perform 8 sent).run writing.handle stale = (.ok stored, t) ∧
          t.cache.find? (.ofTexts "apps" "config") = some ⟨stored, t.clock⟩ := by
  have hshape : sent.IsRead := ⟨⟨_, rfl⟩, ⟨_, rfl⟩, ⟨_, rfl⟩, ⟨_, rfl⟩⟩
  have hok : ((Operation.update.perform 8 sent).run writing.handle stale).1.isOk = true := by
    decide +kernel
  obtain ⟨⟨body, -, a, -, hsettles⟩, -⟩ :=
    write_settles writing 8 .update stale hshape rfl answersUnder_writing
  refine ⟨(Cache.find?_put ..).trans (if_pos rfl), ?_⟩
  cases hresult : ((Operation.update.perform 8 sent).run writing.handle stale).1 with
  | ok stored =>
    rw [hresult] at hsettles
    cases hsettles with
    | stored _ hleaves => exact ⟨stored, _, Prod.ext hresult rfl, hleaves.find?⟩
  | error fault =>
    rw [hresult] at hok
    cases hok

end TimedCache

end SecretMirror
