import Depthwise.Proofs.Exact.Guards
import Depthwise.Proofs.Exact.Wrapping

/-!
# Low bits of large numbers

A wrapping format is to keep the low bits of the rounded number, however large it is.  But a number
beyond the mantissas saturates before it wraps, and what wraps then are the low bits of a bound: of
the least mantissa they are zero, and of the greatest they are all ones.

* A value that is shifted left has even mantissas only, so the greatest mantissa never has its low
  bits; the least one has them if they are zero (`saturate_lifted_modEq_iff`).
* A floating-point number that saturates is a multiple of a large power of two, so its low bits are
  zero.  The least mantissa has them, and so has the greatest, if it is rounded to the nearest; only
  the modes that cut it off keep its ones (`round_saturate_modEq_iff`).

`keeps_low_bits_iff` puts both together, and `ofFloat_large` is a power of two that becomes `-1`.
-/

namespace Depthwise

open Mantissa (Fits)

/-! ### Bounds that wrap -/

/-- The bounds at the guard bits, rounded: a power of two, or one less if the ones of the greatest
mantissa are cut off. -/
theorem Rounding.round_bounds_guarded (mode : Rounding) :
    mode.round ((Mantissa.least : ℤ) / 2 ^ 32) = -1 * 2 ^ 95 ∧
      mode.round ((Mantissa.greatest : ℤ) / 2 ^ 32) =
        if mode = .down ∨ mode = .towardZero then 2 ^ 95 - 1 else 1 * 2 ^ 95 := by
  have hplaces : 32 ≤ maxShift := by decide
  rw [← mode.shiftRight_eq_round _ hplaces, ← mode.shiftRight_eq_round _ hplaces]
  cases mode <;> decide

namespace Precision

variable {p : Precision}

/-- Large powers of two wrap to zero. -/
theorem two_pow_modEq_zero (p : Precision) {k : ℕ} (hk : 32 ≤ k) (m : ℤ) :
    m * 2 ^ k ≡ 0 [ZMOD 2 ^ p.width] :=
  Int.modEq_zero_iff_dvd.mpr ((pow_dvd_pow 2 (p.width_le.trans hk)).mul_left m)

theorem least_modEq_zero (p : Precision) : Mantissa.least ≡ 0 [ZMOD 2 ^ p.width] := by
  have hleast : Mantissa.least = -1 * 2 ^ 127 := by decide
  rw [hleast]
  exact p.two_pow_modEq_zero (by decide) _

/-! ### Values that are shifted left -/

theorem store_raw_modEq (hwrap : p.overflow = .wrap) {x : Fixed} (hx : Fits x.raw)
    (hlt : x.frac < p.frac) :
    (p.store x).raw ≡ Mantissa.saturate (x.lifted p.frac) [ZMOD 2 ^ p.width] := by
  have hdrop : x.frac - p.frac ≤ (Rounding.maxShift : ℤ) := by
    rw [Rounding.maxShift]
    omega
  rw [store_eq_saturate hx (.inl hdrop), Fixed.scaled_of_le hlt.le, Rounding.round_intCast]
  exact confine_modEq hwrap _

/-- A shifted mantissa that saturates keeps its low bits only at the least mantissa, if they are
zero. -/
theorem saturate_lifted_modEq_iff {x : Fixed} (hlt : x.frac < p.frac) :
    Mantissa.saturate (x.lifted p.frac) ≡ x.lifted p.frac [ZMOD 2 ^ p.width] ↔
      Fits (x.lifted p.frac) ∨ (x.raw < 0 ∧ 2 ^ p.width ∣ x.lifted p.frac) := by
  have hpow : (0 : ℤ) < 2 ^ (p.frac - x.frac).toNat := by positivity
  have hsign : x.lifted p.frac < 0 ↔ x.raw < 0 :=
    ⟨fun h => neg_of_mul_neg_left h hpow.le, fun h => mul_neg_of_neg_of_pos h hpow⟩
  by_cases hfits : Fits (x.lifted p.frac)
  · rw [Mantissa.saturate_of_fits hfits]
    exact iff_of_true rfl (.inl hfits)
  · rw [or_iff_right hfits]
    rcases lt_or_ge Mantissa.greatest (x.lifted p.frac) with hgt | hle
    · rw [Mantissa.saturate_of_gt hgt, ← hsign]
      refine iff_of_false (fun hmod => ?_) fun hneg => absurd (hgt.trans hneg.1) (by decide)
      -- the greatest mantissa is odd
      exact absurd ((two_dvd_iff_of_modEq hmod).mpr (Fixed.two_dvd_lifted hlt)) (by decide)
    · have hlow : x.lifted p.frac < Mantissa.least := not_le.mp fun hge => hfits ⟨hge, hle⟩
      have hneg : x.raw < 0 := hsign.mp (hlow.trans (by decide))
      rw [Mantissa.saturate_of_lt hlow, and_iff_right hneg, ← Int.modEq_zero_iff_dvd]
      exact ⟨fun h => h.symm.trans p.least_modEq_zero, fun h => p.least_modEq_zero.trans h.symm⟩

/-! ### Floating-point numbers -/

theorem ofFloat_raw_modEq (hwrap : p.overflow = .wrap) {x : Float} {v : ℚ}
    (h : (Binary.ofFloat x).toRat? = some v) :
    (p.ofFloat x).raw ≡ p.rounding.round
      ((Mantissa.saturate ⌊v * 2 ^ (p.frac + 32)⌋ : ℤ) / 2 ^ 32) [ZMOD 2 ^ p.width] := by
  rw [p.ofFloat_eq h]
  exact confine_modEq hwrap _

/-- A number beyond the mantissas at the guard bits is a multiple of a large power of two. -/
theorem round_floor_modEq_zero (p : Precision) {x : Float} {v : ℚ}
    (h : (Binary.ofFloat x).toRat? = some v) (hlarge : 2 ^ 127 ≤ |v * 2 ^ (p.frac + 32)|) :
    p.rounding.round (⌊v * 2 ^ (p.frac + 32)⌋ / 2 ^ 32) ≡ 0 [ZMOD 2 ^ p.width] := by
  obtain ⟨k, hk⟩ := p.exists_guard_frac_eq
  rw [hk, zpow_natCast] at hlarge ⊢
  obtain ⟨m, hm⟩ := Binary.double.exists_eq_mul_two_pow h (j := 74) (k := k) hlarge
  have hquotient : ((m * 2 ^ 74 : ℤ) : ℚ) / 2 ^ 32 = (m * 2 ^ 42 : ℤ) := by
    push_cast
    ring
  rw [hm, Int.floor_intCast, hquotient, Rounding.round_intCast]
  exact p.two_pow_modEq_zero (by decide) m

/-- Saturation at the guard bits is seen in the low bits only above, and only where the ones of the
greatest mantissa are cut off. -/
theorem round_saturate_modEq_iff (p : Precision) {x : Float} {v : ℚ}
    (h : (Binary.ofFloat x).toRat? = some v) :
    p.rounding.round ((Mantissa.saturate ⌊v * 2 ^ (p.frac + 32)⌋ : ℤ) / 2 ^ 32) ≡
        p.rounding.round (⌊v * 2 ^ (p.frac + 32)⌋ / 2 ^ 32) [ZMOD 2 ^ p.width] ↔
      v * 2 ^ (p.frac + 32) < 2 ^ 127 ∨
        (p.rounding ≠ .down ∧ p.rounding ≠ .towardZero) := by
  obtain ⟨hleast, hgreatest⟩ := p.rounding.round_bounds_guarded
  rcases lt_or_ge (v * 2 ^ (p.frac + 32)) (2 ^ 127) with hlt | hge
  · refine iff_of_true ?_ (.inl hlt)
    rcases lt_or_ge (v * 2 ^ (p.frac + 32)) (-2 ^ 127) with hlow | hhigh
    · have hfloor : ⌊v * 2 ^ (p.frac + 32)⌋ < Mantissa.least := by
        rw [Int.floor_lt, Mantissa.least]
        exact_mod_cast hlow
      have hzero := p.round_floor_modEq_zero h (le_abs.mpr (.inr (le_neg.mpr hlow.le)))
      rw [Mantissa.saturate_of_lt hfloor, hleast]
      exact (p.two_pow_modEq_zero (by decide) _).trans hzero.symm
    · rw [Mantissa.saturate_of_fits (Mantissa.fits_floor_iff.mpr ⟨hhigh, hlt⟩)]
  · have hfloor : Mantissa.greatest < ⌊v * 2 ^ (p.frac + 32)⌋ := by
      rw [Mantissa.greatest, Int.sub_one_lt_iff, Int.le_floor]
      exact_mod_cast hge
    have hzero := p.round_floor_modEq_zero h (le_abs.mpr (.inl hge))
    rw [Mantissa.saturate_of_gt hfloor, hgreatest, or_iff_right (not_lt.mpr hge), ← not_or]
    split
    · next hcut =>
      refine iff_of_false (fun hmod => ?_) (not_not_intro hcut)
      exact absurd ((two_dvd_iff_of_modEq (hmod.trans hzero)).mpr (dvd_zero 2)) (by decide)
    · next hkept =>
      exact iff_of_true ((p.two_pow_modEq_zero (by decide) _).trans hzero.symm) hkept

/-- **Where a wrapping format keeps the low bits.**  A floating-point number is stored with the low
bits of its rounded value, however large it is, unless it is beyond the greatest mantissa at the
guard bits and the mode goes down or toward zero.  A value with fewer fractional bits is stored with
the low bits of its shifted mantissa exactly where that is a mantissa, or is below all of them and
has zeros only. -/
theorem keeps_low_bits_iff (hwrap : p.overflow = .wrap) :
    (∀ (x : Float) (v : ℚ), (Binary.ofFloat x).toRat? = some v →
        ((p.ofFloat x).raw ≡ p.rounding.round (⌊v * 2 ^ (p.frac + 32)⌋ / 2 ^ 32)
            [ZMOD 2 ^ p.width] ↔
          v * 2 ^ (p.frac + 32) < 2 ^ 127 ∨
            (p.rounding ≠ .down ∧ p.rounding ≠ .towardZero))) ∧
      ∀ x : Fixed, Fits x.raw → x.frac < p.frac →
        ((p.store x).raw ≡ x.raw * 2 ^ (p.frac - x.frac).toNat [ZMOD 2 ^ p.width] ↔
          Fits (x.raw * 2 ^ (p.frac - x.frac).toNat) ∨
            (x.raw < 0 ∧ 2 ^ p.width ∣ x.raw * 2 ^ (p.frac - x.frac).toNat)) := by
  refine ⟨fun x v h => ?_, fun x hx hlt => ?_⟩
  · have hstored := ofFloat_raw_modEq hwrap h
    rw [← p.round_saturate_modEq_iff h]
    exact ⟨hstored.symm.trans, hstored.trans⟩
  · have hstored := store_raw_modEq hwrap hx hlt
    have hiff := saturate_lifted_modEq_iff (p := p) hlt
    rw [Fixed.lifted] at hstored hiff
    rw [← hiff]
    exact ⟨hstored.symm.trans, hstored.trans⟩

/-! ### Powers of two in bytes -/

theorem toRat?_two_pow_95 :
    (Binary.ofFloat (Float.ofBits 0x45E0000000000000)).toRat? = some (2 ^ 95) := by
  have hdecode : Binary.ofFloat (Float.ofBits 0x45E0000000000000) = .finite false (2 ^ 52) 43 := by
    decide
  rw [hdecode, Binary.Extended.toRat?, Binary.Extended.dyadic]
  norm_num

/-- Bytes that are rounded to the nearest keep the low bits of `2 ^ 95`. -/
theorem keeps_low_bits_nearest :
    (bytes.withRounding .nearestUp).overflow = .wrap ∧
      (Binary.ofFloat (Float.ofBits 0x45E0000000000000)).toRat? = some (2 ^ 95) ∧
      (bytes.withRounding .nearestUp).rounding ≠ .down ∧
      (bytes.withRounding .nearestUp).rounding ≠ .towardZero ∧
      ((bytes.withRounding .nearestUp).ofFloat (Float.ofBits 0x45E0000000000000)).raw ≡
        (bytes.withRounding .nearestUp).rounding.round
          (⌊(2 ^ 95 : ℚ) * 2 ^ ((bytes.withRounding .nearestUp).frac + 32)⌋ / 2 ^ 32)
          [ZMOD 2 ^ (bytes.withRounding .nearestUp).width] := by
  have hwrap : (bytes.withRounding .nearestUp).overflow = .wrap := rfl
  obtain ⟨hfloat, -⟩ := keeps_low_bits_iff hwrap
  exact ⟨hwrap, toRat?_two_pow_95, by decide, by decide,
    (hfloat _ _ toRat?_two_pow_95).mpr (.inr ⟨by decide, by decide⟩)⟩

/-- Bytes that go down do not: the low bits of `2 ^ 95` are zero, but it is stored as `-1`.  So is
`2 ^ 127`, which has no mantissa in bytes. -/
theorem ofFloat_large :
    bytes.overflow = .wrap ∧
      (Binary.ofFloat (Float.ofBits 0x45E0000000000000)).toRat? = some (2 ^ 95) ∧
      bytes.rounding.round (⌊(2 ^ 95 : ℚ) * 2 ^ (bytes.frac + 32)⌋ / 2 ^ 32) = 2 ^ 95 ∧
      bytes.ofFloat (Float.ofBits 0x45E0000000000000) = ⟨-1, 0⟩ ∧
      ¬ (-1 : ℤ) ≡ 2 ^ 95 [ZMOD 2 ^ bytes.width] ∧
      bytes.store ⟨1, -127⟩ = ⟨-1, 0⟩ ∧ ¬ (-1 : ℤ) ≡ 1 * 2 ^ 127 [ZMOD 2 ^ bytes.width] := by
  have hround : bytes.rounding.round (⌊(2 ^ 95 : ℚ) * 2 ^ (bytes.frac + 32)⌋ / 2 ^ 32) =
      2 ^ 95 := by
    norm_num [bytes, frac, Rounding.round]
  exact ⟨rfl, toRat?_two_pow_95, hround, by decide, by decide, by decide, by decide⟩

end Precision

end Depthwise
