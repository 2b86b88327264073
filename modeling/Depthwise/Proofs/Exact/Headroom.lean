import Depthwise.Numerics.Accumulator
import Depthwise.Proofs.Exact.Arithmetic

/-!
# How much room a mantissa leaves

A step of an accumulator adds the product of a stored sample and a stored weight to a stored sum.
The product, the sum and the product at their common number of fractional bits, and what is added
all have to be mantissas (`Fixed.Unsaturated`); then the step stores the exact sum
(`accumulate_eq_quantize`).

Formats of at most 32 bits, with at most 32 fractional bits on either side of the point, always
leave room for the product, but not for the rest.  What counts is how many fractional bits the
product has more than the sum (`Precision.excess`).  Whatever the widths, no step saturates with at
most 63 fewer and at most 95 more, and beyond either bound some step does (`unsaturated_iff`): an
accumulator of large units then loses what it held (`accumulate_largeUnits`).  `Headroom`, which
counts in whole powers of two, is one bit narrower on either side.
-/

namespace Depthwise

/-- Beyond the greatest mantissa a left shift leads further beyond it. -/
theorem Mantissa.not_fits_of_le {m : ℤ} {a b : ℕ} (hm : 0 ≤ m) (hab : a ≤ b)
    (h : greatest < m * 2 ^ a) : ¬ Fits (m * 2 ^ b) := by
  intro ⟨_, hle⟩
  have hpow : (2 : ℤ) ^ a ≤ 2 ^ b := pow_le_pow_right₀ (by decide) hab
  have hmul : m * 2 ^ a ≤ m * 2 ^ b := mul_le_mul_of_nonneg_left hpow hm
  exact absurd hle (not_le.mpr (h.trans_le hmul))

namespace Fixed

/-- No mantissa on the way to `s + d * w` stops at a bound. -/
structure Unsaturated (s d w : Fixed) : Prop where
  product : Mantissa.Fits (d.raw * w.raw)
  sum : SumFits s (d * w)

end Fixed

namespace Precision

variable {data weight accum : Precision}

/-! ### Within the room -/

/-- The fractional bits a product has more than the sum it is added to. -/
def excess (data weight accum : Precision) : ℤ := data.frac + weight.frac - accum.frac

theorem abs_mul_raw_le {d w : Fixed} (hd : data.Stores d) (hw : weight.Stores w) :
    |d.raw * w.raw| ≤ (2 ^ 32 - 1) * (2 ^ 32 - 1) := by
  rw [abs_mul]
  exact mul_le_mul (Int.le_sub_one_of_lt hd.abs_raw_lt) (Int.le_sub_one_of_lt hw.abs_raw_lt)
    (abs_nonneg _) (by decide)

/-- The product of two stored values is always a mantissa. -/
theorem fits_mul_raw {d w : Fixed} (hd : data.Stores d) (hw : weight.Stores w) :
    Mantissa.Fits (d.raw * w.raw) :=
  Mantissa.fits_of_abs_lt ((abs_mul_raw_le hd hw).trans_lt (by decide))

theorem unsaturated_of_excess (hge : -63 ≤ excess data weight accum)
    (hle : excess data weight accum ≤ 95) {d w s : Fixed} (hd : data.Stores d)
    (hw : weight.Stores w) (hs : accum.Stores s) : Fixed.Unsaturated s d w := by
  have hfits := fits_mul_raw hd hw
  have hsum := Int.le_sub_one_of_lt hs.abs_raw_lt
  have hproduct := abs_mul_raw_le hd hw
  have hfrac := hs.1
  unfold excess at hge hle
  rw [← hd.1, ← hw.1, ← hfrac] at hge hle
  refine ⟨hfits, ?_⟩
  rw [Fixed.mul_eq hfits]
  have hm : d.frac + w.frac - s.frac ≤ (95 : ℕ) := by omega
  have hn : s.frac - (d.frac + w.frac) ≤ (63 : ℕ) := by omega
  exact Fixed.sumFits_of_abs_raw_le hsum hproduct hm hn (by decide) (by decide)

/-- A step that does not saturate stores the exact sum. -/
theorem accumulate_eq_quantize {d w s : Fixed} (hd : data.Stores d) (hw : weight.Stores w)
    (hs : accum.Stores s) (h : Fixed.Unsaturated s d w) :
    (Accumulator.stored accum).accumulate s (d * w) =
      accum.quantize (s.toRat + d.toRat * w.toRat) := by
  have hdf := data.frac_bounds
  have hwf := weight.frac_bounds
  have haf := accum.frac_bounds
  have hfrac : (d * w).frac ≤ accum.frac + Rounding.maxShift := by
    rw [Fixed.mul_eq h.product, Rounding.maxShift]
    simp only [hd.1, hw.1]
    omega
  rw [← Fixed.toRat_mul h.product]
  exact store_add_of_sumFits hs.1 hfrac h.sum

/-! ### Beyond the room -/

/-- The unsigned format of 32 bits with the fractional bits of `p`. -/
def widest (p : Precision) : Precision where
  width := 32
  integer := 32 - p.frac
  isSigned := false
  rounding := p.rounding
  overflow := p.overflow
  width_pos := by decide
  width_le := by decide
  frac_ge := by have := p.frac_bounds; omega
  frac_le := by have := p.frac_bounds; omega

theorem widest_frac (p : Precision) : p.widest.frac = p.frac := by
  simp only [widest, frac]
  omega

theorem stores_widest (p : Precision) : p.widest.Stores ⟨2 ^ 32 - 1, p.frac⟩ :=
  ⟨p.widest_frac.symm, by simp [minRaw, widest], le_refl _⟩

theorem stores_zero (p : Precision) : p.Stores ⟨0, p.frac⟩ := ⟨rfl, p.holds_zero⟩

theorem not_unsaturated_of_lt_excess (h : 95 < excess data weight accum) :
    ¬ Fixed.Unsaturated ⟨2 ^ 32 - 1, accum.frac⟩ ⟨0, data.frac⟩ ⟨0, weight.frac⟩ := by
  intro hsat
  have hleft := hsat.sum.left
  rw [Fixed.mul_eq hsat.product] at hleft
  simp only [Fixed.lifted] at hleft
  unfold excess at h
  exact Mantissa.not_fits_of_le (a := 96) (by decide) (by omega) (by decide) hleft

theorem not_unsaturated_of_excess_lt (h : excess data weight accum < -63) :
    ¬ Fixed.Unsaturated ⟨0, accum.frac⟩ ⟨2 ^ 32 - 1, data.frac⟩ ⟨2 ^ 32 - 1, weight.frac⟩ := by
  intro hsat
  have hright := hsat.sum.right
  rw [Fixed.mul_eq hsat.product] at hright
  simp only [Fixed.lifted] at hright
  unfold excess at h
  exact Mantissa.not_fits_of_le (a := 64) (by decide) (by omega) (by decide) hright

/-- **What room the limits on formats leave.**  The product of a stored sample and a stored weight
is always a mantissa.  The whole step is free of saturation in all formats with these fractional
bits exactly when the product has at most 63 fewer and at most 95 more of them than the sum, and
then it stores the exact sum. -/
theorem unsaturated_iff (data weight accum : Precision) :
    (∀ d w, data.Stores d → weight.Stores w → Mantissa.Fits (d.raw * w.raw)) ∧
      ((∀ data' weight' accum' : Precision, data'.frac = data.frac →
          weight'.frac = weight.frac → accum'.frac = accum.frac →
          ∀ d w s, data'.Stores d → weight'.Stores w → accum'.Stores s →
            Fixed.Unsaturated s d w) ↔
        -63 ≤ excess data weight accum ∧ excess data weight accum ≤ 95) ∧
      (-63 ≤ excess data weight accum → excess data weight accum ≤ 95 →
        ∀ d w s, data.Stores d → weight.Stores w → accum.Stores s →
          (Accumulator.stored accum).accumulate s (d * w) =
            accum.quantize (s.toRat + d.toRat * w.toRat)) := by
  refine ⟨fun d w hd hw => fits_mul_raw hd hw, ⟨fun hall => ⟨?_, ?_⟩, ?_⟩, ?_⟩
  · by_contra hlt
    exact not_unsaturated_of_excess_lt (not_le.mp hlt)
      (hall data.widest weight.widest accum data.widest_frac weight.widest_frac rfl _ _ _
        data.stores_widest weight.stores_widest accum.stores_zero)
  · by_contra hlt
    exact not_unsaturated_of_lt_excess (not_le.mp hlt)
      (hall data weight accum.widest rfl rfl accum.widest_frac _ _ _ data.stores_zero
        weight.stores_zero accum.stores_widest)
  · rintro ⟨hge, hle⟩ data' weight' accum' hdf hwf haf d w s hd hw hs
    have hexcess : excess data' weight' accum' = excess data weight accum := by
      rw [excess, excess, hdf, hwf, haf]
    exact unsaturated_of_excess (hexcess ▸ hge) (hexcess ▸ hle) hd hw hs
  · intro hge hle d w s hd hw hs
    exact accumulate_eq_quantize hd hw hs (unsaturated_of_excess hge hle hd hw hs)

/-! ### An accumulator of large units -/

/-- The unsigned format of 32 bits in units of `2 ^ (-32)`. -/
def smallUnits : Precision where
  width := 32
  integer := 0
  isSigned := false
  rounding := .down
  overflow := .wrap
  width_pos := by decide
  width_le := by decide
  frac_ge := by decide
  frac_le := by decide

/-- The unsigned format of 32 bits in units of `2 ^ 32`. -/
def largeUnits : Precision where
  width := 32
  integer := 64
  isSigned := false
  rounding := .down
  overflow := .wrap
  width_pos := by decide
  width_le := by decide
  frac_ge := by decide
  frac_le := by decide

/-- The greatest sum in large units, to which `2 ^ (-64)` is added, would stay as it is; but it
saturates at the fractional bits of the product, and half of it is left. -/
theorem accumulate_largeUnits :
    smallUnits.Stores ⟨1, 32⟩ ∧ largeUnits.Stores ⟨4294967295, -32⟩ ∧
      ¬ Fixed.Unsaturated ⟨4294967295, -32⟩ ⟨1, 32⟩ ⟨1, 32⟩ ∧
      largeUnits.quantize ((Fixed.mk 4294967295 (-32)).toRat +
        (Fixed.mk 1 32).toRat * (Fixed.mk 1 32).toRat) = ⟨4294967295, -32⟩ ∧
      (Accumulator.stored largeUnits).accumulate ⟨4294967295, -32⟩
        (Fixed.mk 1 32 * Fixed.mk 1 32) = ⟨2147483647, -32⟩ := by
  have hround : largeUnits.rounding.round
      (((Fixed.mk 4294967295 (-32)).toRat + (Fixed.mk 1 32).toRat * (Fixed.mk 1 32).toRat) *
        2 ^ largeUnits.frac) = 4294967295 := by
    norm_num [Fixed.toRat, largeUnits, frac, Rounding.round]
  refine ⟨by decide, by decide, fun hsat => ?_, ?_, by decide⟩
  · have hleft : ¬ Mantissa.Fits ((Fixed.mk 4294967295 (-32)).lifted 64) := by decide
    exact hleft hsat.sum.left
  · rw [quantize, hround]
    decide

end Precision

end Depthwise
