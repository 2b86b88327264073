/-!
# Element counts

Extents, pads, strides and buffer lengths are natural numbers; a buffer length must also fit a
64-bit machine word.  A **checked** sum or product is absent when it does not fit, a **saturating**
product stops at the largest count.
-/

namespace Depthwise.Count

-- Powers are those of the core library, whatever else is imported.
attribute [local instance (high)] instPowNat

/-- The largest count a buffer length can hold. -/
def limit : Nat := 2 ^ (64 : Nat) - 1

/-- `n` itself, if it fits. -/
def checked (n : Nat) : Option Nat := if n ≤ limit then some n else none

/-- The sum, if it fits. -/
def add? (a b : Nat) : Option Nat := checked (a + b)

/-- The product, if it fits. -/
def mul? (a b : Nat) : Option Nat := checked (a * b)

/-- The product, or the largest count when it does not fit. -/
def mulSat (a b : Nat) : Nat := min (a * b) limit

theorem checked_eq_some {n k : Nat} : checked n = some k ↔ n ≤ limit ∧ n = k := by
  simp [checked]

theorem checked_eq_none {n : Nat} : checked n = none ↔ limit < n := by
  simp [checked]

/-- A saturated factor saturates the product just as the exact factor does. -/
theorem mulSat_min (a b : Nat) : mulSat (min a limit) b = min (a * b) limit := by
  rcases Nat.le_total a limit with h | h
  · rw [Nat.min_eq_left h, mulSat]
  · rw [Nat.min_eq_right h, mulSat]
    rcases Nat.eq_zero_or_pos b with rfl | hb
    · simp
    · have h₁ : limit ≤ limit * b := Nat.le_mul_of_pos_right _ hb
      have h₂ : limit * b ≤ a * b := Nat.mul_le_mul_right _ h
      rw [Nat.min_eq_right h₁, Nat.min_eq_right (Nat.le_trans h₁ h₂)]

theorem mul?_eq_some {a b k : Nat} : mul? a b = some k ↔ a * b ≤ limit ∧ a * b = k :=
  checked_eq_some

theorem add?_eq_some {a b k : Nat} : add? a b = some k ↔ a + b ≤ limit ∧ a + b = k :=
  checked_eq_some

theorem mul?_of_le {a b : Nat} (h : a * b ≤ limit) : mul? a b = some (a * b) :=
  mul?_eq_some.mpr ⟨h, rfl⟩

theorem add?_of_le {a b : Nat} (h : a + b ≤ limit) : add? a b = some (a + b) :=
  add?_eq_some.mpr ⟨h, rfl⟩

theorem mul?_eq_none {a b : Nat} : mul? a b = none ↔ limit < a * b := checked_eq_none

end Depthwise.Count
