import SecretMirror.Proofs.LateEvents.History
import Mathlib.Data.List.Forall2

/-!
# Which versions were written

What happens around the mirror is a list of occurrences: a watch event that shows some version of
the canonical secret was delivered, or a write of the mirror was sent (`occurrencesOf`).  That a
write carries the data of a version is said by numbering it (`Occurrence.Numbered`).

A version is admitted after some numbered occurrences (`Admits`) if no later version was written,
unless an event has shown the admitted one since, and if no later version was shown that can be
read.  Numbered occurrences are orderly if every version was admitted when it was written
(`Orderly`).  They are the accounts of a history (`Accounts`) if, moreover, what is cached of the
canonical secret is a copy of an admitted version.  Accounts stay accounts when more versions are
stored (`Accounts.advances`), and they can be continued by writes that carry the data of an admitted
version (`Accounts.writes`).
-/

namespace SecretMirror

open Operator
open Program hiding bind ask

/-- What may happen around the mirror.  A write is first given by what was sent, and after it was
numbered by the number of its version. -/
inductive Occurrence (α : Type) where
  /-- A watch event was delivered that shows the version with a number. -/
  | delivered (n : Nat)
  /-- The mirror was written. -/
  | wrote (a : α)

/-- A write that was sent, whether as a creation or as a replacement. -/
structure Sent where
  body : WireSecret
  /-- Whether it was answered without a fault. -/
  isTaken : Bool

/-- The data of a write that was answered without a fault, so that it is stored. -/
def Sent.taken? (sent : Sent) : Option Data :=
  if sent.isTaken then sent.body.data.dataSection.toOption else none

/-- The write that an exchange sends, if it is one. -/
def sent? {τ : Type} : Exchange (requests τ) (Fault τ) → Option Sent
  | ⟨.create _ body, a⟩ => some ⟨body, a.isOk⟩
  | ⟨.replace _ _ body, a⟩ => some ⟨body, a.isOk⟩
  | _ => none

/-- The writes among some exchanges, in order. -/
def occurrencesOf {τ : Type} (xs : List (Exchange (requests τ) (Fault τ))) :
    List (Occurrence Sent) :=
  (xs.filterMap sent?).map .wrote

@[simp] theorem occurrencesOf_nil {τ : Type} :
    occurrencesOf ([] : List (Exchange (requests τ) (Fault τ))) = [] := rfl

@[simp] theorem occurrencesOf_append {τ : Type} (xs ys : List (Exchange (requests τ) (Fault τ))) :
    occurrencesOf (xs ++ ys) = occurrencesOf xs ++ occurrencesOf ys := by
  simp [occurrencesOf, List.filterMap_append]

theorem occurrencesOf_eq_nil {τ : Type} {xs : List (Exchange (requests τ) (Fault τ))}
    (hxs : ∀ x ∈ xs, x.request.IsHarmless) : occurrencesOf xs = [] := by
  have hnone : ∀ x ∈ xs, sent? x = none := by
    intro x hx
    have hharmless := hxs x hx
    obtain ⟨q, a⟩ := x
    cases q with
    | create space body => exact hharmless.elim
    | replace space name body => exact hharmless.elim
    | _ => rfl
  rw [occurrencesOf, List.filterMap_eq_nil_iff.2 hnone, List.map_nil]

/-- The secret is a copy of the version with the number. -/
def Copies (versions : List WireSecret) (n : Nat) (s : Secret) : Prop :=
  ∃ w, versions[n]? = some w ∧ Secret.ofWire w = .ok s

namespace Occurrence

/-- The number of the version that the occurrence is about. -/
def number : Occurrence Nat → Nat
  | .delivered n => n
  | .wrote n => n

/-- An occurrence with the number of its version.  What was written has the data of that version; a
delivery tells its number itself. -/
inductive Numbered (versions : List WireSecret) : Occurrence Sent → Occurrence Nat → Prop where
  | delivered (n : Nat) : Numbered versions (.delivered n) (.delivered n)
  | wrote {sent : Sent} {n : Nat} {s : Secret} (hcopies : Copies versions n s)
      (hcarries : sent.body.Carries s) : Numbered versions (.wrote sent) (.wrote n)

end Occurrence

variable {versions later : List WireSecret} {log : List (Occurrence Nat)} {n k : Nat} {s : Secret}

theorem getElem?_later {α : Type} {xs ys : List α} (hlater : xs <+: ys) {i : Nat} {x : α}
    (hx : xs[i]? = some x) : ys[i]? = some x := by
  obtain ⟨hi, rfl⟩ := List.getElem?_eq_some_iff.1 hx
  exact List.prefix_iff_getElem?.1 hlater i hi

namespace Copies

theorem lt_length (h : Copies versions n s) : n < versions.length := by
  obtain ⟨w, hw, -⟩ := h
  exact (List.getElem?_eq_some_iff.1 hw).1

theorem mono (hlater : versions <+: later) (h : Copies versions n s) : Copies later n s := by
  obtain ⟨w, hw, hread⟩ := h
  exact ⟨w, getElem?_later hlater hw, hread⟩

theorem of_mono (hlater : versions <+: later) (hlt : n < versions.length)
    (h : Copies later n s) : Copies versions n s := by
  obtain ⟨rest, rfl⟩ := hlater
  obtain ⟨w, hw, hread⟩ := h
  rw [List.getElem?_append_left hlt] at hw
  exact ⟨w, hw, hread⟩

end Copies

theorem Occurrence.Numbered.mono (hlater : versions <+: later) {d : Occurrence Sent}
    {e : Occurrence Nat} (h : d.Numbered versions e) : d.Numbered later e := by
  cases h with
  | delivered n => exact .delivered n
  | wrote hcopies hcarries => exact .wrote (hcopies.mono hlater) hcarries

/-! ## Order -/

/-- The version may be written after these occurrences.  No later one was written, unless an event
has shown this one since, and no later one was shown that can be read. -/
structure Admits (versions : List WireSecret) (log : List (Occurrence Nat)) (k : Nat) : Prop where
  wrote : ∀ i n : Nat, log[i]? = some (Occurrence.wrote n) →
    n ≤ k ∨ ∃ j : Nat, i < j ∧ log[j]? = some (Occurrence.delivered k)
  delivered : ∀ n s, Occurrence.delivered n ∈ log → Copies versions n s → n ≤ k

/-- Every version was admitted when it was written, and all numbers are those of stored versions. -/
structure Orderly (versions : List WireSecret) (log : List (Occurrence Nat)) : Prop where
  bounded : ∀ d ∈ log, d.number < versions.length
  wrote : ∀ i n : Nat, log[i]? = some (Occurrence.wrote n) → Admits versions (log.take i) n

theorem Admits.mono (hlater : versions <+: later) (hbounded : ∀ d ∈ log, d.number < versions.length)
    (h : Admits versions log k) : Admits later log k where
  wrote := h.wrote
  delivered n s hn hcopies := h.delivered n s hn (hcopies.of_mono hlater (hbounded _ hn))

/-- The latest version is always admitted, so what is read may be written. -/
theorem Orderly.admits (h : Orderly versions log) (hk : versions.length ≤ k + 1) :
    Admits versions log k where
  wrote i n hi := by
    have hlt : n < versions.length := h.bounded _ (List.mem_of_getElem? hi)
    left
    omega
  delivered n s hn _ := by
    have hlt : n < versions.length := h.bounded _ hn
    omega

theorem Orderly.mono (hlater : versions <+: later) (h : Orderly versions log) :
    Orderly later log where
  bounded d hd := lt_of_lt_of_le (h.bounded d hd) hlater.length_le
  wrote i n hi := (h.wrote i n hi).mono hlater fun d hd => h.bounded d (List.mem_of_mem_take hd)

theorem getElem?_concat_cases {α : Type} {xs : List α} {x y : α} {i : Nat}
    (h : (xs ++ [x])[i]? = some y) : xs[i]? = some y ∨ i = xs.length ∧ y = x := by
  by_cases hi : i < xs.length
  · left
    rw [List.getElem?_append_left hi] at h
    exact h
  · right
    rw [List.getElem?_append_right (Nat.le_of_not_lt hi), List.getElem?_singleton] at h
    split at h
    · next hzero =>
      cases h
      exact ⟨by omega, rfl⟩
    · cases h

/-- What was written is still admitted. -/
theorem Admits.wrote_self (h : Admits versions log k) : Admits versions (log ++ [.wrote k]) k where
  wrote i n hi := by
    rcases getElem?_concat_cases hi with hold | ⟨-, hlast⟩
    · refine (h.wrote i n hold).imp_right ?_
      rintro ⟨j, hij, hj⟩
      exact ⟨j, hij, getElem?_later (List.prefix_append ..) hj⟩
    · cases hlast
      exact .inl le_rfl
  delivered n s hn hcopies := by
    rcases List.mem_append.1 hn with hold | hlast
    · exact h.delivered n s hold hcopies
    · cases List.mem_singleton.1 hlast

/-- What an event shows is admitted, provided that events come in order. -/
theorem Admits.of_delivered (horder : ∀ m, Occurrence.delivered m ∈ log → m ≤ n) :
    Admits versions (log ++ [.delivered n]) n where
  wrote i m hi := by
    right
    rcases getElem?_concat_cases hi with hold | ⟨-, hlast⟩
    · exact ⟨log.length, (List.getElem?_eq_some_iff.1 hold).1, List.getElem?_concat_length⟩
    · cases hlast
  delivered m s hm _ := by
    rcases List.mem_append.1 hm with hold | hlast
    · exact horder m hold
    · cases List.mem_singleton.1 hlast
      exact le_rfl

theorem Admits.illegible (h : Admits versions log k) (hn : ∀ s, ¬ Copies versions n s) :
    Admits versions (log ++ [.delivered n]) k where
  wrote i m hi := by
    rcases getElem?_concat_cases hi with hold | ⟨-, hlast⟩
    · refine (h.wrote i m hold).imp_right ?_
      rintro ⟨j, hij, hj⟩
      exact ⟨j, hij, getElem?_later (List.prefix_append ..) hj⟩
    · cases hlast
  delivered m s hm hcopies := by
    rcases List.mem_append.1 hm with hold | hlast
    · exact h.delivered m s hold hcopies
    · cases List.mem_singleton.1 hlast
      exact absurd hcopies (hn s)

/-- Orderly occurrences may be continued by one that is about a version and, if it is a write, about
an admitted one. -/
theorem Orderly.concat (h : Orderly versions log) {d : Occurrence Nat}
    (hd : d.number < versions.length)
    (hwrote : ∀ n, d = .wrote n → Admits versions log n) : Orderly versions (log ++ [d]) where
  bounded e he := by
    rcases List.mem_append.1 he with hold | hlast
    · exact h.bounded e hold
    · rw [List.mem_singleton.1 hlast]
      exact hd
  wrote i n hi := by
    rcases getElem?_concat_cases hi with hold | ⟨rfl, hlast⟩
    · have hlt : i < log.length := (List.getElem?_eq_some_iff.1 hold).1
      rw [List.take_append_of_le_length (Nat.le_of_lt hlt)]
      exact h.wrote i n hold
    · rw [List.take_left]
      exact hwrote n hlast.symm

/-! ## Accounts -/

/-- The occurrences have these numbers and are orderly, and what is cached of the canonical secret
may be written.  This is the invariant of whatever happens. -/
structure Accounts {τ : Type} (h : History τ) (ds : List (Occurrence Sent))
    (log : List (Occurrence Nat)) :
    Prop where
  sound : h.IsSound
  numbered : List.Forall₂ (Occurrence.Numbered h.versions) ds log
  orderly : Orderly h.versions log
  cached : ∀ e, h.cached? .source = some e →
    ∃ k, Copies h.versions k e.secret ∧ Admits h.versions log k

namespace Accounts

variable {τ : Type} {h h' : History τ} {ds : List (Occurrence Sent)}

theorem mono (hlater : h.versions <+: h'.versions) (hsound : h'.IsSound) (ha : Accounts h ds log)
    (hcached : ∀ e, h'.cached? .source = some e →
      ∃ k, Copies h'.versions k e.secret ∧ Admits h'.versions log k) : Accounts h' ds log where
  sound := hsound
  numbered := ha.numbered.imp fun _ _ hd => hd.mono hlater
  orderly := ha.orderly.mono hlater
  cached := hcached

theorem advances (ha : Accounts h ds log) (hadvances : h.Advances h') : Accounts h' ds log := by
  refine ha.mono hadvances.versions (hadvances.sound ha.sound) fun e he => ?_
  obtain ⟨k, hcopies, hadmits⟩ := ha.cached e (hadvances.cached e he)
  exact ⟨k, hcopies.mono hadvances.versions,
    hadmits.mono hadvances.versions ha.orderly.bounded⟩

/-- An event about a version is delivered, and after that what is cached may be written. -/
theorem delivers (ha : Accounts h ds log) (hn : n < h.versions.length)
    (hlater : h.versions <+: h'.versions) (hsound : h'.IsSound)
    (hcached : ∀ e, h'.cached? .source = some e →
      ∃ k, Copies h'.versions k e.secret ∧ Admits h'.versions (log ++ [.delivered n]) k) :
    Accounts h' (ds ++ [.delivered n]) (log ++ [.delivered n]) where
  sound := hsound
  numbered := by
    have hnumbered := ha.numbered.imp fun _ _ hd => hd.mono hlater
    exact List.rel_append hnumbered (.cons (.delivered n) .nil)
  orderly := by
    have horderly : Orderly h.versions (log ++ [.delivered n]) := ha.orderly.concat hn nofun
    exact horderly.mono hlater
  cached := hcached

theorem mem_of_delivered (ha : Accounts h ds log) (hn : Occurrence.delivered n ∈ log) :
    Occurrence.delivered n ∈ ds := by
  have hnumbered := ha.numbered
  clear ha
  induction hnumbered with
  | nil => cases hn
  | cons hd _ ih =>
    rcases List.mem_cons.1 hn with rfl | hrest
    · cases hd
      exact List.mem_cons_self ..
    · exact List.mem_cons_of_mem _ (ih hrest)

/-- Writes that carry the data of an admitted version, while at most a copy of that version is
cached. -/
theorem writes (ha : Accounts h ds log) (hcopies : Copies h.versions k s)
    (hadmits : Admits h.versions log k) (hcached : ∀ e, h.cached? .source = some e → e.secret = s)
    {sent : List Sent} (hsent : ∀ x ∈ sent, x.body.Carries s) :
    ∃ log', Accounts h (ds ++ sent.map .wrote) log' := by
  -- Each write is admitted on account of the one before it (`Admits.wrote_self`).
  induction sent generalizing ds log with
  | nil =>
    refine ⟨log, ?_⟩
    rw [List.map_nil, List.append_nil]
    exact ha
  | cons x rest ih =>
    have hx : x.body.Carries s := hsent x (List.mem_cons_self ..)
    have hadmits' : Admits h.versions (log ++ [.wrote k]) k := hadmits.wrote_self
    have ha' : Accounts h (ds ++ [.wrote x]) (log ++ [.wrote k]) := by
      refine ⟨ha.sound, ?_, ?_, fun e he => ?_⟩
      · exact List.rel_append ha.numbered (.cons (.wrote hcopies hx) .nil)
      · refine ha.orderly.concat hcopies.lt_length fun n hn => ?_
        cases hn
        exact hadmits
      · rw [hcached e he]
        exact ⟨k, hcopies, hadmits'⟩
    obtain ⟨log', hlog'⟩ := ih ha' hadmits' fun y hy => hsent y (List.mem_cons_of_mem _ hy)
    refine ⟨log', ?_⟩
    rw [List.map_cons, List.append_cons]
    exact hlog'

end Accounts

end SecretMirror
