/-!
# Clock readings

The operator adds, subtracts and compares clock readings and divides once, to turn a rate into a
spacing.  Everything that touches time is written over this interface, so that the same definitions
run on binary floating point and can be studied over exact numbers.
-/

namespace SecretMirror

/-- Numbers that serve as clock readings and as lengths of time, both in seconds.  No laws are asked
for, since floating point keeps none of them; `IsExact` adds those that proofs need. -/
class Time (τ : Type) extends Zero τ, One τ, Add τ, Sub τ, Div τ, LT τ, LE τ, OfScientific τ where
  /-- Readings can be compared. -/
  decideLt : DecidableLT τ
  /-- Readings can be compared for being at most as large.  Floating point has a reading that is not
  at most as large as itself. -/
  decideLe : DecidableLE τ
  /-- Whether a number is zero, so that one must not divide by it. -/
  isZero : τ → Bool

namespace Time

instance {τ : Type} [Time τ] : DecidableLT τ := Time.decideLt

instance {τ : Type} [Time τ] : DecidableLE τ := Time.decideLe

/-- Binary floating point, on which the operator runs.  Both zeros count as zero. -/
instance : Time Float where
  zero := 0.0
  one := 1.0
  decideLt := inferInstance
  decideLe := inferInstance
  isZero x := x == 0.0

end Time

end SecretMirror
