import Depthwise.Proofs.Exact.Store
import Depthwise.Proofs.Kernel.Window

/-!
# Sums and products without saturation

Sums and products of fixed-point values are exact as long as the exact mantissas are mantissas:
those of both summands at the common number of fractional bits, and their sum (`Fixed.SumFits`).

An accumulator of format `p` **admits** a term when this is so for every value `p` stores
(`Precision.Admits`).  Products of stored values are admitted when the fractional bits of the
operands together are at most 62 fewer and at most 94 more than those of the accumulator
(`Precision.Headroom`).  Then one step of the accumulator stores the exact sum (`store_add`).
-/

namespace Depthwise

theorem Mantissa.fits_of_abs_lt {n : ℤ} (h : |n| < 2 ^ 127) : Fits n := by
  rw [abs_lt] at h
  unfold Fits least greatest
  omega

namespace Fixed

variable {x y : Fixed}

/-- The exact mantissa of `x` at `frac` fractional bits, `frac` being no less than its own. -/
def lifted (x : Fixed) (frac : ℤ) : ℤ := x.raw * 2 ^ (frac - x.frac).toNat

theorem lifted_self (x : Fixed) : x.lifted x.frac = x.raw := by
  rw [lifted, sub_self, Int.toNat_zero, pow_zero, mul_one]

theorem two_dvd_lifted {frac : ℤ} (h : x.frac < frac) : 2 ∣ x.lifted frac :=
  (dvd_pow_self 2 (by omega)).mul_left x.raw

theorem aligned_eq (x : Fixed) (frac : ℤ) : x.aligned frac = Mantissa.saturate (x.lifted frac) :=
  Mantissa.shiftLeft_eq _ _

theorem aligned_self (h : Mantissa.Fits x.raw) : x.aligned x.frac = x.raw := by
  rw [aligned_eq, lifted_self, Mantissa.saturate_of_fits h]

theorem toRat_lifted {frac : ℤ} (h : x.frac ≤ frac) :
    (x.lifted frac : ℚ) * 2 ^ (-frac) = x.toRat := by
  obtain ⟨k, hk⟩ := Int.eq_ofNat_of_zero_le (sub_nonneg.mpr h)
  have hfrac : -x.frac = k + -frac := by omega
  rw [lifted, toRat, hk, Int.toNat_natCast, hfrac, zpow_add₀ two_ne_zero, zpow_natCast]
  push_cast
  ring

theorem abs_lifted_le {frac m : ℤ} {k : ℕ} (hraw : |x.raw| ≤ m) (hfrac : frac - x.frac ≤ k) :
    |x.lifted frac| ≤ m * 2 ^ k := by
  have hpow : (2 : ℤ) ^ (frac - x.frac).toNat ≤ 2 ^ k :=
    pow_le_pow_right₀ (by decide) (Int.toNat_le.mpr hfrac)
  rw [lifted, abs_mul, abs_of_pos (by positivity : (0 : ℤ) < 2 ^ (frac - x.frac).toNat)]
  exact mul_le_mul hraw hpow (by positivity) ((abs_nonneg _).trans hraw)

/-- The exact mantissas of two values at their common number of fractional bits are mantissas, and
so is their sum. -/
structure SumFits (x y : Fixed) : Prop where
  left : Mantissa.Fits (x.lifted (max x.frac y.frac))
  right : Mantissa.Fits (y.lifted (max x.frac y.frac))
  sum : Mantissa.Fits (x.lifted (max x.frac y.frac) + y.lifted (max x.frac y.frac))

theorem sumFits_of_abs_le {a b : ℤ} (hx : |x.lifted (max x.frac y.frac)| ≤ a)
    (hy : |y.lifted (max x.frac y.frac)| ≤ b) (h : a + b < 2 ^ 127) : SumFits x y := by
  have ha := (abs_nonneg _).trans hx
  have hb := (abs_nonneg _).trans hy
  have htri := abs_add_le (x.lifted (max x.frac y.frac)) (y.lifted (max x.frac y.frac))
  exact ⟨Mantissa.fits_of_abs_lt (by omega), Mantissa.fits_of_abs_lt (by omega),
    Mantissa.fits_of_abs_lt (by omega)⟩

/-- Mantissas so short, and so few places apart, that they meet without saturation. -/
theorem sumFits_of_abs_raw_le {a b : ℤ} {m n : ℕ} (hx : |x.raw| ≤ a) (hy : |y.raw| ≤ b)
    (hm : y.frac - x.frac ≤ m) (hn : x.frac - y.frac ≤ n) (ha : a * 2 ^ m + b < 2 ^ 127)
    (hb : a + b * 2 ^ n < 2 ^ 127) : SumFits x y := by
  -- only the summand with fewer fractional bits is shifted
  rcases le_total x.frac y.frac with h | h
  · have hleft : |x.lifted (max x.frac y.frac)| ≤ a * 2 ^ m := abs_lifted_le hx (by omega)
    have hright : |y.lifted (max x.frac y.frac)| ≤ b := by rwa [max_eq_right h, lifted_self]
    exact sumFits_of_abs_le hleft hright ha
  · have hleft : |x.lifted (max x.frac y.frac)| ≤ a := by rwa [max_eq_left h, lifted_self]
    have hright : |y.lifted (max x.frac y.frac)| ≤ b * 2 ^ n := abs_lifted_le hy (by omega)
    exact sumFits_of_abs_le hleft hright hb

theorem add_eq (h : SumFits x y) :
    x + y = ⟨x.lifted (max x.frac y.frac) + y.lifted (max x.frac y.frac), max x.frac y.frac⟩ := by
  show x.add y = _
  rw [add, aligned_eq, aligned_eq, Mantissa.saturate_of_fits h.left,
    Mantissa.saturate_of_fits h.right, Mantissa.saturate_of_fits h.sum]

theorem toRat_add (h : SumFits x y) : (x + y).toRat = x.toRat + y.toRat := by
  rw [add_eq h, toRat]
  push_cast
  rw [add_mul, toRat_lifted (le_max_left _ _), toRat_lifted (le_max_right _ _)]

theorem mul_eq (h : Mantissa.Fits (x.raw * y.raw)) : x * y = ⟨x.raw * y.raw, x.frac + y.frac⟩ := by
  show x.mul y = _
  rw [mul, Mantissa.saturate_of_fits h]

theorem toRat_mul (h : Mantissa.Fits (x.raw * y.raw)) : (x * y).toRat = x.toRat * y.toRat := by
  rw [mul_eq h, toRat, toRat, toRat, neg_add, zpow_add₀ two_ne_zero]
  push_cast
  ring

end Fixed

namespace Precision

variable {p : Precision}

/-! ### Stored values -/

theorem Stores.abs_raw_lt {x : Fixed} (h : p.Stores x) : |x.raw| < 2 ^ 32 := by
  obtain ⟨-, hlo, hhi⟩ := h
  obtain ⟨hmin, hmax⟩ := p.range_lt
  exact abs_lt.mpr ⟨hmin.trans_le hlo, hhi.trans_lt hmax⟩

theorem frac_bounds (p : Precision) : -32 ≤ p.frac ∧ p.frac ≤ 32 := ⟨p.frac_ge, p.frac_le⟩

/-- A stored value is stored again as it is. -/
theorem quantize_of_stores {x : Fixed} (h : p.Stores x) : p.quantize x.toRat = x := by
  obtain ⟨hfrac, hholds⟩ := h
  rw [quantize, x.toRat_mul_two_zpow, Fixed.scaled, hfrac, sub_self, zpow_zero, mul_one,
    Rounding.round_intCast, confine_of_holds hholds, ← hfrac]

/-- A value of one format is stored exactly in every other. -/
theorem store_of_stores {q : Precision} {x : Fixed} (h : q.Stores x) :
    p.store x = p.quantize x.toRat := by
  have hraw := h.abs_raw_lt
  have hp := p.frac_bounds
  have hq := q.frac_bounds
  have hfrac := h.1
  refine store_eq_quantize (Mantissa.fits_of_abs_lt (hraw.trans (by decide)))
    (by unfold Rounding.maxShift; omega) fun _ => Mantissa.fits_of_abs_lt ?_
  have hlifted : |x.lifted p.frac| ≤ 2 ^ 32 * 2 ^ 64 := Fixed.abs_lifted_le hraw.le (by omega)
  exact hlifted.trans_lt (by decide)

/-! ### One step of an accumulator -/

/-- Terms that can be added without saturation to every value a format stores. -/
structure Admits (p : Precision) (x : Fixed) : Prop where
  abs_raw_lt : |x.raw| < 2 ^ 64
  frac_ge : p.frac - 62 ≤ x.frac
  frac_le : x.frac ≤ p.frac + 94

theorem Admits.sumFits {s x : Fixed} (hx : p.Admits x) (hs : p.Stores s) : s.SumFits x := by
  obtain ⟨hraw, hge, hle⟩ := hx
  have hfrac := hs.1
  have hm : x.frac - s.frac ≤ (94 : ℕ) := by omega
  have hn : s.frac - x.frac ≤ (62 : ℕ) := by omega
  exact Fixed.sumFits_of_abs_raw_le hs.abs_raw_lt.le hraw.le hm hn (by decide) (by decide)

/-- A sum whose mantissas fit is stored exactly, if it drops no more than `maxShift` bits. -/
theorem store_add_of_sumFits {s x : Fixed} (hfrac : s.frac = p.frac)
    (hle : x.frac ≤ p.frac + Rounding.maxShift) (hsum : s.SumFits x) :
    p.store (s + x) = p.quantize (s.toRat + x.toRat) := by
  rw [← Fixed.toRat_add hsum]
  have heq := Fixed.add_eq hsum
  refine store_eq_quantize ?_ ?_ ?_
  · rw [heq]
    exact hsum.sum
  · rw [heq]
    simp only
    omega
  · -- the sum has no fewer fractional bits than the accumulator
    rw [heq]
    intro hlt
    simp only at hlt
    omega

/-- **One step of an accumulator stores the exact sum.** -/
theorem store_add {s x : Fixed} (hs : p.Stores s) (hx : p.Admits x) :
    p.store (s + x) = p.quantize (s.toRat + x.toRat) := by
  have hle := hx.frac_le
  exact store_add_of_sumFits hs.1 (by unfold Rounding.maxShift; omega) (hx.sumFits hs)

/-- The fractional bits of samples, weights and sums with which no sum of products saturates. -/
def Headroom (data weight accum : Precision) : Prop :=
  -62 ≤ data.frac + weight.frac - accum.frac ∧ data.frac + weight.frac - accum.frac ≤ 94

/-- Formats whose last bit is not before the point have headroom. -/
theorem headroom_of_frac_nonneg {data weight accum : Precision} (hd : 0 ≤ data.frac)
    (hw : 0 ≤ weight.frac) (ha : 0 ≤ accum.frac) : Headroom data weight accum := by
  have h₁ := data.frac_bounds
  have h₂ := weight.frac_bounds
  have h₃ := accum.frac_bounds
  exact ⟨by omega, by omega⟩

/-- Products of stored values are exact, and admitted where there is headroom. -/
theorem admits_mul {data weight accum : Precision} (room : Headroom data weight accum)
    {d w : Fixed} (hd : data.Stores d) (hw : weight.Stores w) :
    accum.Admits (d * w) ∧ (d * w).toRat = d.toRat * w.toRat := by
  have hraw : |d.raw * w.raw| < 2 ^ 64 := by
    rw [abs_mul]
    exact mul_lt_mul'' hd.abs_raw_lt hw.abs_raw_lt (abs_nonneg _) (abs_nonneg _)
  have hfits : Mantissa.Fits (d.raw * w.raw) := Mantissa.fits_of_abs_lt (hraw.trans (by decide))
  obtain ⟨hge, hle⟩ := room
  have hdf := hd.1
  have hwf := hw.1
  refine ⟨?_, Fixed.toRat_mul hfits⟩
  rw [Fixed.mul_eq hfits]
  exact ⟨hraw, by simp only; omega, by simp only; omega⟩

/-! ### Runs of an accumulator -/

/-- A run over the terms that are read is the exact run over all of them, when those left out are
zero. -/
theorem foldl_store_eq {xs : List Fixed} {qs : List ℚ}
    (h : Filled 0 (fun x q => p.Admits x ∧ q = x.toRat) xs qs) (s : Fixed) (hs : p.Stores s) :
    qs.foldl (fun v q => (p.quantize (v + q)).toRat) s.toRat =
        (xs.foldl (fun s x => p.store (s + x)) s).toRat ∧
      p.Stores (xs.foldl (fun s x => p.store (s + x)) s) := by
  induction h generalizing s with
  | nil => exact ⟨rfl, hs⟩
  | read hx _ ih =>
      obtain ⟨hadmits, rfl⟩ := hx
      rw [List.foldl_cons, List.foldl_cons, ← store_add hs hadmits]
      exact ih _ (p.stores_store _)
  | skip _ ih =>
      -- a stored value with nothing added is stored as it is
      rw [List.foldl_cons, add_zero, quantize_of_stores hs]
      exact ih s hs

end Precision

end Depthwise
