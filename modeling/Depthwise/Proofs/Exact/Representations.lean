import Depthwise.Proofs.Exact.Powers

/-!
# Storing and representations

A number has many representations, with more or fewer fractional bits, and a format should store all
of them alike.  It does so as long as each is rounded as the number it denotes
(`store_eq_of_toRat_eq`), also where the shifts saturate: a number too large for a mantissa is so in
all its representations.

What tells representations apart is the cap on shifts.  A value with more than `maxShift` fractional
bits too many is stored as if it had just so many (`store_eq_store_capped`), which is another
number, and a mantissa of 126 bits or more shows it.  So representations are stored alike exactly as
far as the cap reaches (`store_depends_on_toRat`), and `store_longHalf` is one half that is stored
as one.
-/

namespace Depthwise

/-- One more fractional bit leaves the number as it is. -/
theorem Fixed.toRat_mul_two (raw frac : ℤ) :
    (mk (raw * 2) (frac + 1)).toRat = (mk raw frac).toRat := by
  simp only [toRat]
  rw [neg_add, zpow_add₀ two_ne_zero]
  push_cast
  ring

namespace Precision

/-- Every representation of a number is stored alike, if it is rounded as that number. -/
theorem store_eq_of_toRat_eq {p : Precision} {x y : Fixed} (hx : Mantissa.Fits x.raw)
    (hy : Mantissa.Fits y.raw) (hx' : p.DropsExactly x) (hy' : p.DropsExactly y)
    (h : x.toRat = y.toRat) : p.store x = p.store y := by
  rw [store_eq_saturate hx hx', store_eq_saturate hy hy', ← x.toRat_mul_two_zpow,
    ← y.toRat_mul_two_zpow, h]

/-! ### Beyond the cap -/

/-- Fractional bits beyond the cap are not looked at. -/
theorem store_eq_store_capped (p : Precision) (x : Fixed) :
    p.store x = p.store ⟨x.raw, min x.frac (p.frac + Rounding.maxShift)⟩ := by
  rcases le_total x.frac (p.frac + Rounding.maxShift) with h | h
  · rw [min_eq_left h]
  · have hcap : p.frac + Rounding.maxShift - p.frac = Rounding.maxShift := by omega
    have hmax : (0 : ℤ) < Rounding.maxShift := by decide
    have hplaces : Rounding.maxShift ≤ (x.frac - p.frac).toNat := by omega
    simp only [min_eq_right h, store, hcap, if_pos hmax, Int.toNat_natCast,
      if_pos (by omega : 0 < x.frac - p.frac), Rounding.shiftRight, min_eq_right hplaces, min_self]

/-- In every mode `7 / 4`, which is what the cap makes of `7 / 8`, is rounded to more. -/
theorem shiftRight_lt_capped (mode : Rounding) :
    0 ≤ mode.shiftRight (7 * 2 ^ 123) 126 ∧
      mode.shiftRight (7 * 2 ^ 123) 126 < mode.shiftRight (7 * 2 ^ 124) 127 ∧
      mode.shiftRight (7 * 2 ^ 124) 127 ≤ 2 := by
  cases mode <;> decide

theorem store_widest_ne (p : Precision) :
    p.widest.store ⟨7 * 2 ^ 123, p.frac + 126⟩ ≠ p.widest.store ⟨7 * 2 ^ 124, p.frac + 127⟩ := by
  obtain ⟨hnonneg, hlt, hle⟩ := shiftRight_lt_capped p.widest.rounding
  have hstore (raw : ℤ) {k : ℕ} (hk : 0 < k) :
      p.widest.store ⟨raw, p.frac + k⟩ =
        ⟨p.widest.resolve (p.widest.rounding.shiftRight raw k), p.widest.frac⟩ := by
    rw [store, widest_frac, add_sub_cancel_left, if_pos (by omega), Int.toNat_natCast]
  intro heq
  have hraw := congrArg Fixed.raw
    ((hstore _ (by decide : 0 < 126)).symm.trans (heq.trans (hstore _ (by decide : 0 < 127))))
  simp only at hraw
  rw [resolve_of_mem (holds_widest hnonneg (by omega)),
    resolve_of_mem (holds_widest (by omega) (by omega))] at hraw
  omega

/-- **How far storing depends on the number alone.**  Representations of one number are stored alike
if none has more than 126 fractional bits too many, or those that have are of less than 126 bits.
In all formats with these fractional bits and these modes, 126 is the most that can be said without
regard to the mantissa.  A value with more of them is stored as if it had 126. -/
theorem store_depends_on_toRat (p : Precision) :
    (∀ x y : Fixed, Mantissa.Fits x.raw → Mantissa.Fits y.raw →
        (x.frac - p.frac ≤ 126 ∨ |x.raw| < 2 ^ 125) →
        (y.frac - p.frac ≤ 126 ∨ |y.raw| < 2 ^ 125) →
        x.toRat = y.toRat → p.store x = p.store y) ∧
      (∀ n : ℤ, (∀ q : Precision, q.frac = p.frac → q.rounding = p.rounding →
          q.overflow = p.overflow → ∀ x y : Fixed, Mantissa.Fits x.raw → Mantissa.Fits y.raw →
            x.frac - q.frac ≤ n → y.frac - q.frac ≤ n → x.toRat = y.toRat →
            q.store x = q.store y) ↔ n ≤ 126) ∧
      ∀ x : Fixed, p.store x = p.store ⟨x.raw, min x.frac (p.frac + 126)⟩ := by
  refine ⟨fun x y hx hy hx' hy' h => store_eq_of_toRat_eq hx hy hx' hy' h, fun n => ⟨?_, ?_⟩,
    p.store_eq_store_capped⟩
  · intro hall
    by_contra hn
    have hx : Mantissa.Fits (7 * 2 ^ 123) := by decide
    have hy : Mantissa.Fits (7 * 2 ^ 124) := by decide
    have hnumber := (Fixed.toRat_mul_two (7 * 2 ^ 123) (p.frac + 126)).symm
    rw [add_assoc] at hnumber
    exact p.store_widest_ne (hall p.widest p.widest_frac rfl rfl ⟨_, p.frac + 126⟩
      ⟨_, p.frac + 127⟩ hx hy (by simp only [widest_frac]; omega)
      (by simp only [widest_frac]; omega) hnumber)
  · intro hn q _ _ _ x y hx hy hx' hy' h
    exact store_eq_of_toRat_eq hx hy (.inl (hx'.trans hn)) (.inl (hy'.trans hn)) h

/-- One half with 127 fractional bits is stored as one in units, and with one fractional bit as
zero. -/
theorem store_longHalf :
    Mantissa.Fits (2 ^ 126) ∧ (Fixed.mk (2 ^ 126) 127).toRat = (Fixed.mk 1 1).toRat ∧
      bytes.store ⟨2 ^ 126, 127⟩ = ⟨1, 0⟩ ∧ bytes.store ⟨1, 1⟩ = ⟨0, 0⟩ := by
  refine ⟨by decide, ?_, by decide, by decide⟩
  norm_num [Fixed.toRat]

end Precision

end Depthwise
