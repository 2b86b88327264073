import Depthwise.Proofs.Exact.Arithmetic

/-!
# Equality of fixed-point values

Two values are compared at the larger number of fractional bits of the two, so that the mantissa of
one of them is shifted, with saturation.

* Values that denote one number are equal.
* What saturates becomes the greatest or the least mantissa.  It is then equal to a value that has
  this mantissa at the larger number of fractional bits, though it lies beyond it (`Passes`); and
  this is all that equality adds (`equal_iff`).

So equality is reflexive and symmetric, and among values whose mantissas are not at the bounds it is
that of the numbers.  It is transitive through a value exactly when the mantissa of that value is
not at a bound (`equal_trans_of_inner`, `exists_not_equal`).
-/

namespace Depthwise

/-- What a number saturates to: itself, or a bound it lies beyond. -/
theorem Mantissa.saturate_eq_iff {n m : ℤ} (hm : Fits m) :
    saturate n = m ↔ n = m ∨ (m = greatest ∧ m < n) ∨ (m = least ∧ n < m) := by
  unfold Fits saturate least greatest at *
  omega

/-- A mantissa between the bounds. -/
def Mantissa.Inner (n : ℤ) : Prop := least < n ∧ n < greatest

theorem Mantissa.Inner.fits {n : ℤ} (h : Inner n) : Fits n := ⟨h.1.le, h.2.le⟩

namespace Fixed

/-- `y` has the greatest mantissa and `x` is above it, or `y` has the least one and `x` is below. -/
def Passes (x y : Fixed) : Prop :=
  (y.raw = Mantissa.greatest ∧ y.toRat < x.toRat) ∨ (y.raw = Mantissa.least ∧ x.toRat < y.toRat)

variable {x y : Fixed} {frac : ℤ}

/-! ### Numbers at a common number of fractional bits -/

theorem toRat_lt_iff (hx : x.frac ≤ frac) (hy : y.frac ≤ frac) :
    x.toRat < y.toRat ↔ x.lifted frac < y.lifted frac := by
  have hpos : (0 : ℚ) < 2 ^ (-frac) := zpow_pos two_pos _
  rw [← toRat_lifted hx, ← toRat_lifted hy, mul_lt_mul_iff_left₀ hpos]
  exact_mod_cast Iff.rfl

theorem toRat_eq_iff (hx : x.frac ≤ frac) (hy : y.frac ≤ frac) :
    x.toRat = y.toRat ↔ x.lifted frac = y.lifted frac := by
  have hpos : (0 : ℚ) < 2 ^ (-frac) := zpow_pos two_pos _
  rw [← toRat_lifted hx, ← toRat_lifted hy, mul_left_inj' hpos.ne']
  exact_mod_cast Iff.rfl

/-! ### What is equal -/

theorem equal_comm (x y : Fixed) : x.equal y = y.equal x := by
  simp only [equal, max_comm y.frac, Bool.beq_comm]

/-- The value with fewer fractional bits is shifted. -/
theorem equal_iff_of_frac_le (h : x.frac ≤ y.frac) (hy : Mantissa.Fits y.raw) :
    x.equal y = true ↔ x.toRat = y.toRat ∨ x.Passes y := by
  rw [equal, max_eq_right h, beq_iff_eq, aligned_self hy, aligned_eq, Mantissa.saturate_eq_iff hy,
    Passes, toRat_eq_iff h le_rfl, toRat_lt_iff h le_rfl, toRat_lt_iff le_rfl h, lifted_self]

/-- A value with more fractional bits passes no bound. -/
theorem not_passes_of_frac_le (h : x.frac ≤ y.frac) (hy : Mantissa.Fits y.raw) :
    ¬ y.Passes x := by
  have hpow : (1 : ℤ) ≤ 2 ^ (y.frac - x.frac).toNat := one_le_pow₀ (by decide)
  rw [Passes, toRat_lt_iff h le_rfl, toRat_lt_iff le_rfl h, lifted_self, lifted]
  rintro (⟨hraw, hlt⟩ | ⟨hraw, hlt⟩)
  · rw [hraw] at hlt
    have hle := le_mul_of_one_le_right (by decide : 0 ≤ Mantissa.greatest) hpow
    exact absurd hy.2 (not_le.mpr (hle.trans_lt hlt))
  · rw [hraw] at hlt
    have hle := mul_le_of_one_le_right (by decide : Mantissa.least ≤ 0) hpow
    exact absurd hy.1 (not_le.mpr (hlt.trans_le hle))

theorem equal_iff (hx : Mantissa.Fits x.raw) (hy : Mantissa.Fits y.raw) :
    x.equal y = true ↔ x.toRat = y.toRat ∨ x.Passes y ∨ y.Passes x := by
  rcases le_total x.frac y.frac with h | h
  · rw [equal_iff_of_frac_le h hy, or_iff_left (not_passes_of_frac_le h hy)]
  · rw [equal_comm, equal_iff_of_frac_le h hx, eq_comm, or_iff_right (not_passes_of_frac_le h hx)]

theorem Passes.not_inner (h : x.Passes y) : ¬ Mantissa.Inner y.raw := by
  rintro ⟨hlo, hhi⟩
  rcases h with ⟨hraw, -⟩ | ⟨hraw, -⟩
  · exact hhi.ne hraw
  · exact hlo.ne' hraw

/-- Between the bounds equality is that of the numbers. -/
theorem equal_iff_of_inner (hx : Mantissa.Inner x.raw) (hy : Mantissa.Inner y.raw) :
    x.equal y = true ↔ x.toRat = y.toRat := by
  rw [equal_iff hx.fits hy.fits]
  refine or_iff_left ?_
  rintro (h | h)
  · exact h.not_inner hy
  · exact h.not_inner hx

/-! ### Transitivity -/

theorem toRat_pos (h : 0 < x.raw) : 0 < x.toRat :=
  mul_pos (by exact_mod_cast h) (zpow_pos two_pos _)

theorem toRat_neg (h : x.raw < 0) : x.toRat < 0 :=
  mul_neg_of_neg_of_pos (by exact_mod_cast h) (zpow_pos two_pos _)

theorem passes_congr {y z : Fixed} (h : x.toRat = y.toRat) : x.Passes z ↔ y.Passes z := by
  rw [Passes, Passes, h]

/-- Of two values at bounds that are passed by a third, one passes the other or they are equal. -/
theorem Passes.equal {y z : Fixed} (hx : Mantissa.Fits x.raw) (hz : Mantissa.Fits z.raw)
    (hyx : y.Passes x) (hyz : y.Passes z) : x.equal z = true := by
  rw [equal_iff hx hz]
  rcases hyx with ⟨hxraw, hxlt⟩ | ⟨hxraw, hxlt⟩ <;> rcases hyz with ⟨hzraw, hzlt⟩ | ⟨hzraw, hzlt⟩
  · rcases lt_trichotomy x.toRat z.toRat with hlt | heq | hgt
    · exact .inr (.inr (.inl ⟨hxraw, hlt⟩))
    · exact .inl heq
    · exact .inr (.inl (.inl ⟨hzraw, hgt⟩))
  · -- the third value cannot be above a positive number and below a negative one
    have hpos : 0 < x.toRat := toRat_pos (by rw [hxraw]; decide)
    have hneg : z.toRat < 0 := toRat_neg (by rw [hzraw]; decide)
    exact absurd (hxlt.trans hzlt) (hneg.trans hpos).not_gt
  · have hneg : x.toRat < 0 := toRat_neg (by rw [hxraw]; decide)
    have hpos : 0 < z.toRat := toRat_pos (by rw [hzraw]; decide)
    exact absurd (hzlt.trans hxlt) (hneg.trans hpos).not_gt
  · rcases lt_trichotomy x.toRat z.toRat with hlt | heq | hgt
    · exact .inr (.inl (.inr ⟨hzraw, hlt⟩))
    · exact .inl heq
    · exact .inr (.inr (.inr ⟨hxraw, hgt⟩))

theorem equal_trans_of_inner {y z : Fixed} (hx : Mantissa.Fits x.raw) (hy : Mantissa.Inner y.raw)
    (hz : Mantissa.Fits z.raw) (hxy : x.equal y = true) (hyz : y.equal z = true) :
    x.equal z = true := by
  have hxy' := ((equal_iff hx hy.fits).mp hxy).imp_right (·.resolve_left fun h => h.not_inner hy)
  have hyz' := ((equal_iff hy.fits hz).mp hyz).imp_right (·.resolve_right fun h => h.not_inner hy)
  rcases hxy' with hxy' | hpass
  · rw [equal_iff hx hz, hxy', passes_congr hxy']
    exact hyz'.imp_right .inl
  · rcases hyz' with hyz' | hpass'
    · exact (equal_iff hx hz).mpr (.inr (.inr ((passes_congr hyz').mp hpass)))
    · exact hpass.equal hx hz hpass'

theorem equal_sub_iff {m n : ℤ} (hn : Mantissa.Fits n) (frac : ℤ) (k : ℕ) :
    (mk m (frac - k)).equal ⟨n, frac⟩ = true ↔ Mantissa.shiftLeft m k = n := by
  have hself : aligned ⟨n, frac⟩ frac = n := aligned_self hn
  have hmax : max (frac - k) frac = frac := max_eq_right (by omega)
  rw [equal, hmax, hself, beq_iff_eq, aligned, sub_sub_cancel, Int.toNat_natCast]

/-- A power of two that reaches the bound equals the value there, and so does the next power. -/
theorem exists_not_equal (hy : Mantissa.Fits y.raw) (h : ¬ Mantissa.Inner y.raw) :
    ∃ x z : Fixed, Mantissa.Fits x.raw ∧ Mantissa.Fits z.raw ∧ x.equal y = true ∧
      y.equal z = true ∧ ¬ x.equal z = true := by
  obtain ⟨unit, hunit, hpow, hnext, hdouble⟩ : ∃ unit, Mantissa.Fits unit ∧
      Mantissa.shiftLeft unit 127 = y.raw ∧ Mantissa.shiftLeft unit 128 = y.raw ∧
        Mantissa.shiftLeft unit 1 ≠ unit := by
    have hbound : y.raw = Mantissa.greatest ∨ y.raw = Mantissa.least := by
      unfold Mantissa.Inner Mantissa.Fits at *
      omega
    rcases hbound with hraw | hraw <;> rw [hraw]
    · exact ⟨1, by decide, by decide, by decide, by decide⟩
    · exact ⟨-1, by decide, by decide, by decide, by decide⟩
  refine ⟨⟨unit, y.frac - (127 : ℕ)⟩, ⟨unit, y.frac - (128 : ℕ)⟩, hunit, hunit,
    (equal_sub_iff hy _ _).mpr hpow, ?_, ?_⟩
  · rw [equal_comm]
    exact (equal_sub_iff hy _ _).mpr hnext
  · have hfrac : y.frac - (128 : ℕ) = y.frac - (127 : ℕ) - (1 : ℕ) := by omega
    rw [equal_comm, hfrac, equal_sub_iff hunit]
    exact hdouble

/-- **What equality is.**  Values are equal when they denote one number, or when one has a mantissa
at a bound which the other passes.  Equality is reflexive and symmetric, and on values whose
mantissas are between the bounds it is that of the numbers.  Through a value it is transitive
exactly when the mantissa of that value is between the bounds. -/
theorem equal_characterized (x y : Fixed) :
    (Mantissa.Fits x.raw → Mantissa.Fits y.raw →
        (x.equal y = true ↔ x.toRat = y.toRat ∨ x.Passes y ∨ y.Passes x)) ∧
      x.equal x = true ∧ x.equal y = y.equal x ∧
      (Mantissa.Inner x.raw → Mantissa.Inner y.raw →
        (x.equal y = true ↔ x.toRat = y.toRat)) ∧
      (Mantissa.Fits y.raw →
        ((∀ w z : Fixed, Mantissa.Fits w.raw → Mantissa.Fits z.raw → w.equal y = true →
            y.equal z = true → w.equal z = true) ↔ Mantissa.Inner y.raw)) := by
  refine ⟨equal_iff, beq_self_eq_true _, equal_comm x y, equal_iff_of_inner, fun hy => ⟨?_, ?_⟩⟩
  · intro htrans
    by_contra hinner
    obtain ⟨w, z, hw, hz, hwy, hyz, hwz⟩ := exists_not_equal hy hinner
    exact hwz (htrans w z hw hz hwy hyz)
  · intro hinner w z hw hz hwy hyz
    exact equal_trans_of_inner hw hinner hz hwy hyz

/-- The greatest mantissa equals the next number, which has none, and the double of that; those two
are not equal. -/
theorem equal_greatest :
    Mantissa.Fits Mantissa.greatest ∧
      (Fixed.mk 1 (-127)).toRat ≠ (Fixed.mk Mantissa.greatest 0).toRat ∧
      (Fixed.mk 1 (-127)).equal ⟨Mantissa.greatest, 0⟩ = true ∧
      (Fixed.mk Mantissa.greatest 0).equal ⟨1, -128⟩ = true ∧
      (Fixed.mk 1 (-127)).equal ⟨1, -128⟩ = false := by
  refine ⟨by decide, ?_, by decide, by decide, by decide⟩
  norm_num [toRat, Mantissa.greatest]

end Fixed

end Depthwise
