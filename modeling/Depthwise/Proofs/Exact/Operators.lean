import Depthwise.Proofs.Exact.Arithmetic

/-!
# What the operators compute

The operators work on mantissas that saturate.  Where both operands have a mantissa at their common
number of fractional bits, a sum that is a mantissa is exact.  So is a product, if the fractional
bits of both add up to a number of fractional bits, as they do for stored values
(`fracFits_of_stores`).

A difference is a sum with a negative, and the range of mantissas is not symmetric: the negative of
the least mantissa saturates, although the difference may well be a mantissa (`aligned_neg`).  So a
difference that is a mantissa is exact unless what is subtracted is the least mantissa there, and
then it is one less (`operators_exact`).  `sub_least` is the first such difference.
-/

namespace Depthwise

namespace Mantissa

variable {n : ℤ}

/-- Every mantissa but the least has a negative. -/
theorem fits_neg (h : Fits n) (hn : n ≠ least) : Fits (-n) := by
  unfold Fits least greatest at *
  omega

theorem saturate_neg_least : saturate (-least) = -least - 1 := by decide

/-- Shifted, a negative is the negative of the shifted mantissa, also where it saturates. -/
theorem saturate_neg_mul (m : ℤ) (k : ℕ) (h : Fits (m * 2 ^ k)) :
    saturate (saturate (-m) * 2 ^ k) = saturate (-(m * 2 ^ k)) := by
  have hpow : (1 : ℤ) ≤ 2 ^ k := one_le_pow₀ (by decide)
  rcases lt_or_ge least m with hm | hm
  · have hfits : Fits (-m) := by
      refine fits_neg ⟨hm.le, ?_⟩ hm.ne'
      rcases lt_or_ge m 0 with hneg | hnonneg
      · exact hneg.le.trans (by decide)
      · exact (le_mul_of_one_le_right hnonneg hpow).trans h.2
    rw [saturate_of_fits hfits, neg_mul]
  · -- the least mantissa has room for no shift
    have hneg : m < 0 := hm.trans_lt (by decide)
    have hle : m * 2 ^ k = m := (mul_le_of_one_le_right hneg.le hpow).antisymm (hm.trans h.1)
    have hone : (2 : ℤ) ^ k = 1 := mul_left_cancel₀ hneg.ne (hle.trans (mul_one m).symm)
    rw [hone, mul_one, mul_one, saturate_of_fits (fits_saturate _)]

end Mantissa

namespace Fixed

open Mantissa (Fits)

variable {x y : Fixed}

theorem aligned_neg {frac : ℤ} (h : Fits (y.lifted frac)) :
    (-y).aligned frac = Mantissa.saturate (-y.lifted frac) := by
  rw [aligned_eq]
  exact Mantissa.saturate_neg_mul y.raw _ h

section Difference

variable (hx : Fits (x.lifted (max x.frac y.frac))) (hy : Fits (y.lifted (max x.frac y.frac)))

include hx hy

/-- A difference is the sum with the negative, which saturates by itself. -/
theorem sub_eq_saturate :
    x - y = ⟨Mantissa.saturate (x.lifted (max x.frac y.frac) +
      Mantissa.saturate (-y.lifted (max x.frac y.frac))), max x.frac y.frac⟩ := by
  have hfrac : (-y).frac = y.frac := rfl
  show x.add (-y) = _
  rw [add, hfrac, aligned_eq, aligned_neg hy, Mantissa.saturate_of_fits hx]

variable (hsub : Fits (x.lifted (max x.frac y.frac) - y.lifted (max x.frac y.frac)))

include hsub

theorem sub_eq_of_ne_least (h : y.lifted (max x.frac y.frac) ≠ Mantissa.least) :
    x - y = ⟨x.lifted (max x.frac y.frac) - y.lifted (max x.frac y.frac), max x.frac y.frac⟩ := by
  rw [sub_eq_saturate hx hy, Mantissa.saturate_of_fits (Mantissa.fits_neg hy h), ← sub_eq_add_neg,
    Mantissa.saturate_of_fits hsub]

theorem sub_eq_of_eq_least (h : y.lifted (max x.frac y.frac) = Mantissa.least) :
    x - y = ⟨x.lifted (max x.frac y.frac) - y.lifted (max x.frac y.frac) - 1,
      max x.frac y.frac⟩ := by
  rw [sub_eq_saturate hx hy, h, Mantissa.saturate_neg_least]
  rw [h] at hsub
  -- only a negative number is so far above the least mantissa by no more than a mantissa
  have hfits : Fits (x.lifted (max x.frac y.frac) - Mantissa.least - 1) := by
    unfold Fits Mantissa.least Mantissa.greatest at *
    omega
  rw [← add_sub_assoc, ← sub_eq_add_neg, Mantissa.saturate_of_fits hfits]

end Difference

/-- What is formed of stored values keeps to the numbers of fractional bits: sums, differences and
products of two, and one scaled by as much as an exponential weight scales it. -/
theorem fracFits_of_stores {p q : Precision} (hx : p.Stores x) (hy : q.Stores y) (e : Int8) :
    FracFits (x + y).frac ∧ FracFits (x - y).frac ∧ FracFits (x * y).frac ∧
      FracFits (x.scale e.toInt).frac := by
  have hadd : (x + y).frac = max x.frac y.frac := rfl
  have hsub : (x - y).frac = max x.frac y.frac := rfl
  have hmul : (x * y).frac = x.frac + y.frac := rfl
  have hscale : (x.scale e.toInt).frac = x.frac - e.toInt := rfl
  have hp := p.frac_bounds
  have hq := q.frac_bounds
  have hlo := e.le_toInt
  have hhi := e.toInt_lt
  rw [hadd, hsub, hmul, hscale, hx.1, hy.1]
  unfold FracFits
  omega

/-- **Where arithmetic is exact.**  Let both operands have a mantissa at the larger number of
fractional bits.  A sum that is a mantissa is exact.  A difference that is one is exact if what is
subtracted is not the least mantissa there, and only then: else it is one less.  A product that is a
mantissa is exact, at the sum of the fractional bits, as long as that sum is a number of fractional
bits. -/
theorem operators_exact (x y : Fixed) :
    let frac := max x.frac y.frac
    let a := x.lifted frac
    let b := y.lifted frac
    (Fits a → Fits b →
        (Fits (a + b) → x + y = ⟨a + b, frac⟩) ∧
        (Fits (a - b) → (x - y = ⟨a - b, frac⟩ ↔ b ≠ Mantissa.least)) ∧
        (Fits (a - b) → b = Mantissa.least → x - y = ⟨a - b - 1, frac⟩)) ∧
      (FracFits (x.frac + y.frac) → Fits (x.raw * y.raw) →
        x * y = ⟨x.raw * y.raw, x.frac + y.frac⟩) := by
  refine ⟨fun hx hy => ⟨fun hsum => add_eq ⟨hx, hy, hsum⟩, fun hsub => ⟨?_, ?_⟩, ?_⟩,
    fun _ => mul_eq⟩
  · intro heq hleast
    have hless := heq.symm.trans (sub_eq_of_eq_least hx hy hsub hleast)
    rw [Fixed.mk.injEq] at hless
    omega
  · exact sub_eq_of_ne_least hx hy hsub
  · exact sub_eq_of_eq_least hx hy

/-- The greatest mantissa as a difference: the least one, subtracted from minus one. -/
theorem sub_least :
    (Fixed.mk (-1) 0).lifted 0 - (Fixed.mk Mantissa.least 0).lifted 0 = Mantissa.greatest ∧
      Fits (-1) ∧ Fits Mantissa.least ∧ Fits Mantissa.greatest ∧
      Fixed.mk (-1) 0 - Fixed.mk Mantissa.least 0 = ⟨Mantissa.greatest - 1, 0⟩ ∧
      Fixed.mk (-1) 0 - Fixed.mk Mantissa.least 0 ≠ ⟨Mantissa.greatest, 0⟩ := by
  decide

end Fixed

end Depthwise
