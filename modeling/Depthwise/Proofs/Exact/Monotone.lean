import Depthwise.Proofs.Exact.Arithmetic

/-!
# Storing and order

Storing in a saturating format keeps the order of numbers, in every rounding mode and between values
with different numbers of fractional bits.

* Every mode is monotone (`Rounding.round_mono`).  A mode that goes to the nearest integer need not
  be looked at: no integer nearest to a number is above one nearest to a greater number
  (`Nearest.le_of_lt`), however ties are decided.
* Taking the nearer bound is monotone (`Precision.confine_mono`), and the mantissas' own saturation
  is not seen (`Precision.store_eq_quantize_of_ne_wrap`).

Since a stored value is stored as it is, storing never passes one (`Precision.store_monotone`).
-/

namespace Depthwise

/-- Nearest integers are in the order of the numbers. -/
theorem Nearest.le_of_lt {x y : ℚ} {m n : ℤ} (hm : Nearest x m) (hn : Nearest y n) (h : x < y) :
    m ≤ n := by
  have hfloor := Int.floor_le (x + 1 / 2)
  have hceil := Int.le_ceil (y - 1 / 2)
  have hlt : (⌊x + 1 / 2⌋ : ℚ) < ⌈y - 1 / 2⌉ + 1 := by linarith
  have hle : ⌊x + 1 / 2⌋ ≤ ⌈y - 1 / 2⌉ := Int.lt_add_one_iff.mp (by exact_mod_cast hlt)
  exact (nearest_iff.mp hm).2.trans (hle.trans (nearest_iff.mp hn).1)

namespace Rounding

variable {x y : ℚ}

/-- Toward zero, a negative number goes up and any other goes down, neither beyond zero. -/
private theorem round_towardZero_mono (h : x ≤ y) : towardZero.round x ≤ towardZero.round y := by
  simp only [round]
  rcases lt_or_ge x 0 with hx | hx <;> rcases lt_or_ge y 0 with hy | hy
  · rw [if_pos hx, if_pos hy]
    exact Int.ceil_le_ceil h
  · rw [if_pos hx, if_neg (not_lt.mpr hy)]
    have hceil : ⌈x⌉ ≤ 0 := Int.ceil_le.mpr (by exact_mod_cast hx.le)
    exact hceil.trans (Int.floor_nonneg.mpr hy)
  · exact absurd (hx.trans h) (not_le.mpr hy)
  · rw [if_neg (not_lt.mpr hx), if_neg (not_lt.mpr hy)]
    exact Int.floor_le_floor h

/-- **Every mode keeps the order.** -/
theorem round_mono (mode : Rounding) (h : x ≤ y) : mode.round x ≤ mode.round y := by
  rcases h.eq_or_lt with rfl | hlt
  · exact le_rfl
  · have hx := mode.rounds_round x
    have hy := mode.rounds_round y
    cases mode with
    | down => exact Int.floor_le_floor h
    | towardZero => exact round_towardZero_mono h
    | nearestUp | nearestTowardZero | nearestAway | nearestDown | nearestEven =>
        exact hx.1.le_of_lt hy.1 hlt

end Rounding

namespace Precision

variable {p : Precision}

theorem confine_mono (hmode : p.overflow = .saturate) {m n : ℤ} (h : m ≤ n) :
    p.confine m ≤ p.confine n := by
  simp only [confine, hmode]
  exact max_le_max_left _ (min_le_min_right _ h)

theorem quantize_mono (hmode : p.overflow = .saturate) {v w : ℚ} (h : v ≤ w) :
    (p.quantize v).raw ≤ (p.quantize w).raw := by
  have hpow : (0 : ℚ) ≤ 2 ^ p.frac := zpow_nonneg two_pos.le _
  exact confine_mono hmode (p.rounding.round_mono (mul_le_mul_of_nonneg_right h hpow))

/-- **Storing in a saturating format is monotone.**  Let no more than 126 fractional bits be
dropped, or the mantissa be short.  Then the less of two numbers is stored as no more than the
greater, and what is stored of a number is on the same side of every stored value as the number. -/
theorem store_monotone (hmode : p.overflow = .saturate) {x : Fixed} (hx : Mantissa.Fits x.raw)
    (hdrop : x.frac - p.frac ≤ 126 ∨ |x.raw| < 2 ^ 125) :
    (∀ y : Fixed, Mantissa.Fits y.raw → (y.frac - p.frac ≤ 126 ∨ |y.raw| < 2 ^ 125) →
        x.toRat ≤ y.toRat → (p.store x).raw ≤ (p.store y).raw) ∧
      ∀ z : Fixed, p.Stores z →
        (x.toRat ≤ z.toRat → (p.store x).raw ≤ z.raw) ∧
          (z.toRat ≤ x.toRat → z.raw ≤ (p.store x).raw) := by
  have hwrap : p.overflow ≠ .wrap := by simp [hmode]
  have hstore := store_eq_quantize_of_ne_wrap hwrap hx hdrop
  refine ⟨fun y hy hdrop' hle => ?_, fun z hz => ?_⟩
  · rw [hstore, store_eq_quantize_of_ne_wrap hwrap hy hdrop']
    exact quantize_mono hmode hle
  · have hkept := congrArg Fixed.raw (quantize_of_stores hz)
    rw [hstore, ← hkept]
    exact ⟨quantize_mono hmode, quantize_mono hmode⟩

/-- The halves from `-4` to `3.5` that saturate, away from zero at ties. -/
def saturatingHalves : Precision := symmetricHalves.withOverflow .saturate

/-- `-4.25` is less than `2 ^ 127`, which has no mantissa in halves, and is stored as no more; and
it is stored as no more than `-3.5`, which it is less than as well. -/
theorem store_monotone_halves :
    saturatingHalves.overflow = .saturate ∧ Mantissa.Fits (-34) ∧ Mantissa.Fits 1 ∧
      (3 : ℤ) - saturatingHalves.frac ≤ 126 ∧ (-127 : ℤ) - saturatingHalves.frac ≤ 126 ∧
      ¬ Mantissa.Fits ((Fixed.mk 1 (-127)).lifted saturatingHalves.frac) ∧
      (Fixed.mk (-34) 3).toRat ≤ (Fixed.mk 1 (-127)).toRat ∧
      (saturatingHalves.store ⟨-34, 3⟩).raw ≤ (saturatingHalves.store ⟨1, -127⟩).raw ∧
      saturatingHalves.Stores ⟨-7, 1⟩ ∧ (Fixed.mk (-34) 3).toRat ≤ (Fixed.mk (-7) 1).toRat ∧
      (saturatingHalves.store ⟨-34, 3⟩).raw ≤ -7 := by
  have hlarge : (Fixed.mk (-34) 3).toRat ≤ (Fixed.mk 1 (-127)).toRat := by
    norm_num [Fixed.toRat]
  have hstored : (Fixed.mk (-34) 3).toRat ≤ (Fixed.mk (-7) 1).toRat := by
    norm_num [Fixed.toRat]
  obtain ⟨hmono, hside⟩ := store_monotone (p := saturatingHalves) rfl (x := ⟨-34, 3⟩) (by decide)
    (.inl (by decide))
  exact ⟨rfl, by decide, by decide, by decide, by decide, by decide, hlarge,
    hmono ⟨1, -127⟩ (by decide) (.inl (by decide)) hlarge, by decide, hstored,
    (hside ⟨-7, 1⟩ (by decide)).1 hstored⟩

end Precision

end Depthwise
