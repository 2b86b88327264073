/-!
# Mantissas

A mantissa is a signed 128-bit integer.  An exact result outside that range stops at the nearer
bound: `Mantissa.saturate` is applied after every exact sum, product or left shift.
-/

namespace Depthwise.Mantissa

-- Powers are those of the core library, whatever else is imported.
attribute [local instance (high)] instPowNat

/-- The least mantissa. -/
def least : Int := -2 ^ (127 : Nat)

/-- The greatest mantissa. -/
def greatest : Int := 2 ^ (127 : Nat) - 1

/-- `n` is a mantissa. -/
def Fits (n : Int) : Prop := least ≤ n ∧ n ≤ greatest

instance (n : Int) : Decidable (Fits n) := inferInstanceAs (Decidable (_ ∧ _))

/-- The mantissa nearest to `n`. -/
def saturate (n : Int) : Int := max least (min n greatest)

/-- `raw * 2 ^ shift`, saturating.  A shift by 127 places already saturates every mantissa but
zero, so no further one is looked at. -/
def shiftLeft (raw : Int) (shift : Nat) : Int := saturate (raw * 2 ^ min shift 127)

theorem saturate_of_fits {n : Int} (h : Fits n) : saturate n = n := by
  obtain ⟨h₁, h₂⟩ := h
  rw [saturate, Int.min_eq_left h₂, Int.max_eq_right h₁]

theorem fits_saturate (n : Int) : Fits (saturate n) := by
  unfold Fits saturate least greatest
  omega

end Depthwise.Mantissa
