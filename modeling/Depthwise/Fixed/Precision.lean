import Depthwise.Fixed.Overflow
import Depthwise.Fixed.Value

/-!
# Precisions

A precision is a storage format: how many bits, how many of them before the binary point, whether
signed, and how a value that does not fit is rounded and brought into range.  `Precision.store`
puts a value into it: **first** the rounding, **then** the overflow rule.  Widths are at most 32
bits with at most 32 fractional bits on either side of the point, so that products of stored values
and their sums stay within a mantissa.
-/

namespace Depthwise

-- Powers are those of the core library, whatever else is imported.
attribute [local instance (high)] instPowNat

/-- A fixed-point storage format. -/
structure Precision where
  /-- All bits. -/
  width : Nat
  /-- The bits before the binary point; negative when the format starts behind it. -/
  integer : Int
  isSigned : Bool
  rounding : Rounding
  overflow : Overflow
  width_pos : 1 ≤ width
  width_le : width ≤ 32
  frac_ge : -32 ≤ (width : Int) - integer
  frac_le : (width : Int) - integer ≤ 32
  deriving DecidableEq, Repr

namespace Precision

/-- The format of these bits and modes, if it is admitted. -/
def ofModes (width : Nat) (integer : Int) (isSigned : Bool) (rounding : Rounding)
    (overflow : Overflow) : Except Fault Precision :=
  if hw : 1 ≤ width ∧ width ≤ 32 then
    if hf : -32 ≤ (width : Int) - integer ∧ (width : Int) - integer ≤ 32 then
      .ok ⟨width, integer, isSigned, rounding, overflow, hw.1, hw.2, hf.1, hf.2⟩
    else .error (.invalidPrecision .fractionOutOfRange)
  else .error (.invalidPrecision .widthOutOfRange)

/-- The signed format that rounds down and wraps. -/
def ofBits (width : Nat) (integer : Int) : Except Fault Precision :=
  ofModes width integer true .down .wrap

/-- The unsigned format that rounds down and wraps. -/
def ofBitsUnsigned (width : Nat) (integer : Int) : Except Fault Precision :=
  ofModes width integer false .down .wrap

/-- The format with another rounding mode. -/
def withRounding (p : Precision) (rounding : Rounding) : Precision := { p with rounding }

/-- The format with another overflow mode. -/
def withOverflow (p : Precision) (overflow : Overflow) : Precision := { p with overflow }

/-- The bits behind the binary point; negative when the last bit stands before it. -/
def frac (p : Precision) : Int := p.width - p.integer

/-- The least mantissa the format stores. -/
def minRaw (p : Precision) : Int := if p.isSigned then -2 ^ (p.width - 1) else 0

/-- The greatest mantissa the format stores. -/
def maxRaw (p : Precision) : Int :=
  if p.isSigned then 2 ^ (p.width - 1) - 1 else 2 ^ p.width - 1

/-- A stored value of the format. -/
def Stores (p : Precision) (x : Fixed) : Prop :=
  x.frac = p.frac ∧ p.minRaw ≤ x.raw ∧ x.raw ≤ p.maxRaw

instance (p : Precision) (x : Fixed) : Decidable (p.Stores x) :=
  inferInstanceAs (Decidable (_ ∧ _ ∧ _))

/-- The stored mantissa for `raw`: `raw` itself if it is in range, else what the overflow mode
says. -/
def resolve (p : Precision) (raw : Int) : Int :=
  if p.minRaw ≤ raw ∧ raw ≤ p.maxRaw then raw
  else match p.overflow with
    | .wrap =>
      let low := raw % 2 ^ p.width
      if p.maxRaw < low then low - 2 ^ p.width else low
    | .saturate => if raw < p.minRaw then p.minRaw else p.maxRaw
    | .zero => 0
    | .symmetric =>
      if raw < p.minRaw then (if p.isSigned then -p.maxRaw else p.minRaw) else p.maxRaw

/-- The value as the format stores it. -/
def store (p : Precision) (x : Fixed) : Fixed :=
  let shift := x.frac - p.frac
  let raw :=
    if 0 < shift then p.rounding.shiftRight x.raw shift.toNat
    else Mantissa.shiftLeft x.raw (-shift).toNat
  ⟨p.resolve raw, p.frac⟩

/-- The value with the bit pattern `raw`. -/
def ofRaw (p : Precision) (raw : Int) : Fixed := ⟨p.resolve raw, p.frac⟩

/-- An integer as the format stores it. -/
def ofInt (p : Precision) (n : Int) : Fixed := p.store (.ofInt n)

/-! ### What is stored -/

variable {p : Precision}

/-- An integer in the range is stored as it is, whatever the overflow mode. -/
theorem resolve_of_mem {raw : Int} (h : p.minRaw ≤ raw ∧ raw ≤ p.maxRaw) : p.resolve raw = raw :=
  if_pos h

theorem two_pow_width (p : Precision) : (2 : Int) ^ p.width = 2 * 2 ^ (p.width - 1) := by
  obtain ⟨k, hk⟩ : ∃ k, p.width = k + 1 := ⟨p.width - 1, (Nat.sub_add_cancel p.width_pos).symm⟩
  rw [hk, Nat.add_sub_cancel, Int.pow_succ, Int.mul_comm]

/-- Every mantissa that leaves the overflow rule is in the range. -/
theorem resolve_mem (p : Precision) (raw : Int) :
    p.minRaw ≤ p.resolve raw ∧ p.resolve raw ≤ p.maxRaw := by
  have hw := p.two_pow_width
  have hpos : (0 : Int) < 2 ^ (p.width - 1) := Int.pow_pos (by decide)
  by_cases h : p.minRaw ≤ raw ∧ raw ≤ p.maxRaw
  · rwa [resolve_of_mem h]
  · rw [resolve, if_neg h]
    -- the low bits lie in `[0, 2 ^ width)`, which is the range or twice its upper half
    have hlow := Int.emod_nonneg raw (b := 2 ^ p.width) (by omega)
    have hlow' := Int.emod_lt_of_pos raw (b := 2 ^ p.width) (by omega)
    unfold minRaw maxRaw at *
    cases p.isSigned <;> cases p.overflow <;> simp only [reduceIte, Bool.false_eq_true] at * <;>
      (repeat' split) <;> omega

@[simp] theorem store_frac (p : Precision) (x : Fixed) : (p.store x).frac = p.frac := rfl

/-- What a format stores is a stored value of it. -/
theorem stores_store (p : Precision) (x : Fixed) : p.Stores (p.store x) :=
  ⟨rfl, p.resolve_mem _⟩

theorem stores_ofRaw (p : Precision) (raw : Int) : p.Stores (p.ofRaw raw) :=
  ⟨rfl, p.resolve_mem _⟩

end Precision

end Depthwise
