import SecretMirror.Time
import Mathlib.Algebra.Field.Rat
import Mathlib.Algebra.Order.Field.Basic
import Mathlib.Algebra.Order.Ring.Rat
import Mathlib.Tactic.NormNum.OfScientific

/-!
# Exact clock readings

`Time.IsExact` says what is needed of clock readings for which no rounding comes in: they are in a
line, and adding and taking away the same time keeps their order.  The numbers of an ordered field
are such readings.
-/

namespace SecretMirror.Time

/-- Adding and comparing readings is not disturbed by rounding.  Readings are in a line, and adding
or taking away the same time keeps their order. -/
class IsExact (τ : Type) [Time τ] : Prop where
  le_total (a b : τ) : a ≤ b ∨ b ≤ a
  le_trans {a b c : τ} : a ≤ b → b ≤ c → a ≤ c
  not_lt {a b : τ} : ¬ a < b ↔ b ≤ a
  add_le_add_right {a b : τ} (c : τ) : a ≤ b → a + c ≤ b + c
  sub_le_sub_right {a b : τ} (c : τ) : a ≤ b → a - c ≤ b - c
  le_add_of_nonneg {b : τ} (a : τ) : 0 ≤ b → a ≤ a + b
  sub_nonneg {a b : τ} : a ≤ b → 0 ≤ b - a

section

variable {τ : Type} [Time τ] [IsExact τ] {a b c : τ}

theorem le_refl (a : τ) : a ≤ a := by
  rcases IsExact.le_total a a with h | h
  · exact h
  · exact h

theorem le_of_lt (h : a < b) : a ≤ b := by
  rcases IsExact.le_total a b with h' | h'
  · exact h'
  · exact absurd h (IsExact.not_lt.2 h')

theorem lt_of_lt_of_le (h : a < b) (h' : b ≤ c) : a < c := by
  by_contra hc
  have hca : c ≤ a := IsExact.not_lt.1 hc
  exact IsExact.not_lt.2 (IsExact.le_trans h' hca) h

end

/-! ## Ordered fields -/

variable {K : Type} [Field K] [LinearOrder K]

instance : Time K where
  decideLt := inferInstance
  decideLe := inferInstance
  isZero x := decide (x = 0)

instance [IsStrictOrderedRing K] : IsExact K where
  le_total := LinearOrder.le_total
  le_trans := le_trans
  not_lt := not_lt
  add_le_add_right c h := add_le_add_left h c
  sub_le_sub_right c h := sub_le_sub_right h c
  le_add_of_nonneg _ h := le_add_of_nonneg_right h
  sub_nonneg h := sub_nonneg.2 h

end SecretMirror.Time
