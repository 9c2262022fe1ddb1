import Mathlib.Algebra.Order.Field.Basic
import Mathlib.Algebra.Order.Floor.Semiring
import Mathlib.Data.List.Chain
import Mathlib.Tactic.Linarith

/-!
# Times that are kept apart

`Apart gap times` says that of these times each comes at least `gap` after the one before.  Times
that are kept apart cannot come in crowds: with a positive gap at most `⌊L / gap⌋₊ + 1` of them lie
within any period of length `L`, its ends included (`Apart.countWithin_le`).
-/

namespace SecretMirror

variable {K : Type} [Field K] [LinearOrder K] {gap a b : K} {times later : List K}

/-- Each time comes at least `gap` after the one before.  The gap may be of any sign; results about
crowds ask for a positive one. -/
def Apart (gap : K) (times : List K) : Prop :=
  times.IsChain fun a b => a + gap ≤ b

/-- How many of the times lie in the period that begins at `a` and has length `L`, its ends
included. -/
def countWithin (a L : K) (times : List K) : ℕ :=
  times.countP fun t => a ≤ t ∧ t ≤ a + L

namespace Apart

theorem nil : Apart gap [] := List.isChain_nil

/-- A time that comes after the last one and far enough from it may be added at the end. -/
theorem concat (h : Apart gap times) (hlast : ∀ t ∈ times.getLast?, t + gap ≤ b) :
    Apart gap (times ++ [b]) := by
  rw [Apart, List.isChain_append]
  refine ⟨h, List.isChain_singleton b, fun t ht u hu => ?_⟩
  obtain rfl : b = u := by simpa using hu
  exact hlast t ht

variable [IsStrictOrderedRing K]

/-- Of times that are kept apart some may be left out. -/
theorem filter (hgap : 0 ≤ gap) (h : Apart gap times) (p : K → Bool) :
    Apart gap (times.filter p) := by
  have : IsTrans K fun a b => a + gap ≤ b := ⟨fun a b c hab hbc => by linarith⟩
  exact List.IsChain.sublist h List.filter_sublist

/-- The last of some times that are kept apart comes a gap later for each time but the first. -/
theorem add_length_mul_le (h : Apart gap (a :: later)) (hb : ∀ t ∈ a :: later, t ≤ b) :
    a + later.length * gap ≤ b := by
  induction later generalizing a with
  | nil =>
    have hab : a ≤ b := hb a (List.mem_singleton_self a)
    simpa using hab
  | cons c later ih =>
    obtain ⟨hac, hchain⟩ := List.isChain_cons_cons.1 h
    have hc : c + later.length * gap ≤ b := ih hchain fun t ht => hb t (List.mem_cons_of_mem a ht)
    have hlength : ((c :: later).length : K) = later.length + 1 := by
      rw [List.length_cons, Nat.cast_add, Nat.cast_one]
    rw [hlength, add_mul, one_mul]
    linarith

/-- Few of the times lie within a period: with a positive gap at most one more than gaps fit into
it. -/
theorem countWithin_le [FloorSemiring K] (hgap : 0 < gap) (h : Apart gap times) (a L : K) :
    countWithin a L times ≤ ⌊L / gap⌋₊ + 1 := by
  rw [countWithin, List.countP_eq_length_filter]
  have hwithin : ∀ t ∈ times.filter fun t => a ≤ t ∧ t ≤ a + L, a ≤ t ∧ t ≤ a + L :=
    fun t ht => of_decide_eq_true (List.mem_filter.1 ht).2
  have hapart := h.filter hgap.le fun t => a ≤ t ∧ t ≤ a + L
  generalize times.filter (fun t => a ≤ t ∧ t ≤ a + L) = inside at hwithin hapart
  cases inside with
  | nil => exact Nat.zero_le _
  | cons first rest =>
    have hfirst : a ≤ first := (hwithin first (List.mem_cons_self ..)).1
    have hlast : first + rest.length * gap ≤ a + L :=
      hapart.add_length_mul_le fun t ht => (hwithin t ht).2
    have hfits : (rest.length : K) ≤ L / gap := by
      rw [le_div_iff₀ hgap]
      linarith
    rw [List.length_cons]
    exact Nat.succ_le_succ (Nat.le_floor hfits)

end Apart

end SecretMirror
