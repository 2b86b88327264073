import Depthwise.Fixed.Real
import Depthwise.Proofs.Binary.Scaling
import Depthwise.Proofs.Exact.Powers

/-!
# Guard bits

A floating-point number is floored at 32 bits below the last stored one, and what is left is rounded
and brought into the range (`ofFloat_eq`).  So it is rounded twice.

The floor does not pass a multiple of one half, nor zero: what is at least such a number stays so
(`le_guardFloor_iff`).  A number just above one, by less than the last guard bit, comes to lie on
it.  So floors of the number and of its neighbours at one half are kept (`floor_guardFloor_add`),
and ceilings are, unless the number is just above (`ceil_guardFloor_sub_iff`).

* Going down, and to the nearest with ties up, the floor is never seen.
* Toward zero it is seen just above a negative integer, which is the floor and not the ceiling.
* In the other modes it is seen just above a tie, if they would not have taken the upper neighbour
  at the tie as well.

`round_guardFloor_iff` says this for each mode, `ofFloat_eq_quantize` what it means for the stored
value, and `ofFloat_aboveMinusOne` is a number stored as `-1` that goes to zero when it is rounded
once.
-/

namespace Depthwise

theorem Mantissa.fits_floor_iff {u : ℚ} : Mantissa.Fits ⌊u⌋ ↔ -2 ^ 127 ≤ u ∧ u < 2 ^ 127 := by
  rw [Fits, least, greatest, Int.le_floor, Int.le_sub_one_iff, Int.floor_lt]
  norm_cast

/-! ### The floor at the last guard bit -/

/-- The number `y` without what lies below its 32nd binary place. -/
def guardFloor (y : ℚ) : ℚ := ⌊y * 2 ^ 32⌋ / 2 ^ 32

/-- The number `y` exceeds an integer and `h` by less than the last guard bit. -/
def JustAbove (h y : ℚ) : Prop := h < Int.fract y ∧ Int.fract y < h + 1 / 2 ^ 32

section Guard

variable {y : ℚ} {a : ℤ}

theorem le_guardFloor_iff : (a / 2 : ℚ) ≤ guardFloor y ↔ (a / 2 : ℚ) ≤ y := by
  have hunits : (a / 2 : ℚ) * 2 ^ 32 = (a * 2 ^ 31 : ℤ) := by
    push_cast
    ring
  rw [guardFloor, le_div_iff₀ (by positivity), hunits, Int.cast_le, Int.le_floor, ← hunits,
    mul_le_mul_iff_left₀ (by positivity)]

theorem lt_guardFloor_iff : (a / 2 : ℚ) < guardFloor y ↔ (a / 2 : ℚ) + 1 / 2 ^ 32 ≤ y := by
  have hunits : (a / 2 : ℚ) * 2 ^ 32 = (a * 2 ^ 31 : ℤ) := by
    push_cast
    ring
  have hnext : ((a / 2 : ℚ) + 1 / 2 ^ 32) * 2 ^ 32 = (a * 2 ^ 31 + 1 : ℤ) := by
    push_cast
    ring
  rw [guardFloor, lt_div_iff₀ (by positivity), hunits, Int.cast_lt, ← Int.add_one_le_iff,
    Int.le_floor, ← hnext, mul_le_mul_iff_left₀ (by positivity)]

theorem guardFloor_neg_iff : guardFloor y < 0 ↔ y < 0 := by
  have h := le_guardFloor_iff (y := y) (a := 0)
  rw [Int.cast_zero, zero_div] at h
  rw [← not_le, h, not_le]

theorem floor_guardFloor_add (y : ℚ) (a : ℤ) : ⌊guardFloor y + a / 2⌋ = ⌊y + a / 2⌋ := by
  refine eq_of_forall_le_iff fun n => ?_
  have hhalves : (n : ℚ) - a / 2 = (2 * n - a : ℤ) / 2 := by
    push_cast
    ring
  rw [Int.le_floor, Int.le_floor, ← sub_le_iff_le_add, ← sub_le_iff_le_add, hhalves,
    le_guardFloor_iff]

theorem floor_guardFloor (y : ℚ) : ⌊guardFloor y⌋ = ⌊y⌋ := by
  simpa using floor_guardFloor_add y 0

/-- There is an integer which `y` exceeds by `h` and a little more, exactly if it is the floor. -/
theorem justAbove_iff {h : ℚ} (h₀ : 0 ≤ h) (h₁ : h ≤ 1 / 2) :
    JustAbove h y ↔ ∃ n : ℤ, (n : ℚ) + h < y ∧ y < n + h + 1 / 2 ^ 32 := by
  have hbit : (1 : ℚ) / 2 ^ 32 < 1 / 2 := by norm_num
  have hfract := Int.floor_add_fract y
  constructor
  · rintro ⟨hlo, hhi⟩
    exact ⟨⌊y⌋, by linarith, by linarith⟩
  · rintro ⟨n, hlo, hhi⟩
    obtain rfl : ⌊y⌋ = n := Int.floor_eq_iff.mpr ⟨by linarith, by linarith⟩
    exact ⟨by linarith, by linarith⟩

/-- A ceiling is kept unless the number comes to lie on what it was just above. -/
theorem ceil_guardFloor_sub_iff (h₀ : 0 ≤ a) (h₁ : a ≤ 1) :
    ⌈guardFloor y - a / 2⌉ = ⌈y - a / 2⌉ ↔ ¬ JustAbove (a / 2) y := by
  have h₀' : (0 : ℚ) ≤ a / 2 := div_nonneg (by exact_mod_cast h₀) two_pos.le
  have h₁' : (a / 2 : ℚ) ≤ 1 / 2 := by
    have hcast : (a : ℚ) ≤ 1 := by exact_mod_cast h₁
    linarith
  have hhalves (n : ℤ) : (n : ℚ) + a / 2 = (2 * n + a : ℤ) / 2 := by
    push_cast
    ring
  have hguard (n : ℤ) : n < ⌈guardFloor y - a / 2⌉ ↔ (n : ℚ) + a / 2 + 1 / 2 ^ 32 ≤ y := by
    rw [Int.lt_ceil, lt_sub_iff_add_lt, hhalves, lt_guardFloor_iff]
  have hexact (n : ℤ) : n < ⌈y - a / 2⌉ ↔ (n : ℚ) + a / 2 < y := by
    rw [Int.lt_ceil, lt_sub_iff_add_lt]
  rw [justAbove_iff h₀' h₁', ← not_iff_not, not_not]
  constructor
  · intro hne
    by_contra hnone
    push Not at hnone
    refine hne (eq_of_forall_lt_iff fun n => ?_)
    rw [hguard, hexact]
    exact ⟨fun h => by linarith [(by positivity : (0 : ℚ) < 1 / 2 ^ 32)], hnone n⟩
  · rintro ⟨n, hlo, hhi⟩ heq
    exact absurd ((hguard n).mp (heq ▸ (hexact n).mpr hlo)) (not_le.mpr hhi)

end Guard

/-! ### Rounding twice -/

namespace Rounding

/-- **When the floor at the guard bits is not seen**, mode by mode. -/
theorem round_guardFloor_iff (mode : Rounding) (y : ℚ) :
    mode.round (guardFloor y) = mode.round y ↔
      match mode with
      | down | nearestUp => True
      | towardZero => ¬ (y < 0 ∧ JustAbove 0 y)
      | nearestTowardZero => ¬ (0 ≤ y ∧ JustAbove (1 / 2) y)
      | nearestAway => ¬ (y < 0 ∧ JustAbove (1 / 2) y)
      | nearestDown => ¬ JustAbove (1 / 2) y
      | nearestEven => ¬ (¬ Even ⌊y + 1 / 2⌋ ∧ JustAbove (1 / 2) y) := by
  have hhalf : ⌊guardFloor y + 1 / 2⌋ = ⌊y + 1 / 2⌋ := by
    simpa using floor_guardFloor_add y 1
  have hceil : ⌈guardFloor y⌉ = ⌈y⌉ ↔ ¬ JustAbove 0 y := by
    simpa using ceil_guardFloor_sub_iff (y := y) (a := 0) le_rfl zero_le_one
  have htie : ⌈guardFloor y - 1 / 2⌉ = ⌈y - 1 / 2⌉ ↔ ¬ JustAbove (1 / 2) y := by
    simpa using ceil_guardFloor_sub_iff (y := y) (a := 1) zero_le_one le_rfl
  cases mode with
  | down => simp only [round, floor_guardFloor]
  | nearestUp => simp only [round, hhalf]
  | nearestDown => simp only [round, htie]
  | towardZero =>
      simp only [round, guardFloor_neg_iff, floor_guardFloor]
      by_cases hy : y < 0
      · simp only [hy, if_true, true_and, hceil]
      · simp only [hy, if_false, false_and, not_false_eq_true]
  | nearestTowardZero =>
      simp only [round, guardFloor_neg_iff, hhalf, ← not_lt]
      by_cases hy : y < 0
      · simp only [hy, if_true, not_true_eq_false, false_and, not_false_eq_true]
      · simp only [hy, if_false, not_false_eq_true, true_and, htie]
  | nearestAway =>
      simp only [round, guardFloor_neg_iff, hhalf]
      by_cases hy : y < 0
      · simp only [hy, if_true, true_and, htie]
      · simp only [hy, if_false, false_and, not_false_eq_true]
  | nearestEven =>
      simp only [round, hhalf]
      by_cases heven : Even ⌊y + 1 / 2⌋
      · simp only [heven, if_true, not_true_eq_false, false_and, not_false_eq_true]
      · simp only [heven, if_false, not_false_eq_true, true_and, htie]

variable {mode : Rounding} {y : ℚ}

theorem round_guardFloor_of_upward (h : mode = down ∨ mode = nearestUp) :
    mode.round (guardFloor y) = mode.round y := by
  rcases h with rfl | rfl <;> exact (round_guardFloor_iff _ y).mpr trivial

/-- A nearest integer is kept unless the number comes to lie on a tie. -/
theorem round_guardFloor_of_not_justAbove (h : mode = nearestTowardZero ∨ mode = nearestAway ∨
    mode = nearestDown ∨ mode = nearestEven) (hy : ¬ JustAbove (1 / 2) y) :
    mode.round (guardFloor y) = mode.round y := by
  rcases h with rfl | rfl | rfl | rfl
  · exact (round_guardFloor_iff _ y).mpr fun hboth => hy hboth.2
  · exact (round_guardFloor_iff _ y).mpr fun hboth => hy hboth.2
  · exact (round_guardFloor_iff _ y).mpr hy
  · exact (round_guardFloor_iff _ y).mpr fun hboth => hy hboth.2

/-- Just above a negative integer that integer is taken for the one toward zero. -/
theorem round_guardFloor_towardZero (hy : y < 0) (h : JustAbove 0 y) :
    towardZero.round (guardFloor y) = ⌊y⌋ := by
  have hunits : (⌊y⌋ : ℚ) = (2 * ⌊y⌋ : ℤ) / 2 := by
    push_cast
    ring
  have hle : guardFloor y ≤ ⌊y⌋ := by
    rw [hunits, ← not_lt, lt_guardFloor_iff, ← hunits]
    linarith [h.2, Int.floor_add_fract y]
  rw [round, if_pos (guardFloor_neg_iff.mpr hy)]
  exact (Int.ceil_le.mpr hle).antisymm ((floor_guardFloor y).symm.trans_le (Int.floor_le_ceil _))

end Rounding

namespace Precision

variable {p : Precision}

/-! ### What a floating-point number is stored as -/

/-- The last guard bit is never before the point. -/
theorem exists_guard_frac_eq (p : Precision) : ∃ k : ℕ, p.frac + 32 = k := by
  have hbounds := p.frac_bounds
  exact Int.eq_ofNat_of_zero_le (by omega)

/-- What is left of a number at the guard bits.  Mantissas are finite floating-point numbers, or
between two of them, so an infinity saturates as the number it stands for. -/
theorem guarded_eq (p : Precision) {bits : ℕ} {v : ℚ}
    (h : (Binary.double.decode bits).toRat? = some v) :
    p.guarded bits = ⟨Mantissa.saturate ⌊v * 2 ^ (p.frac + 32)⌋, p.frac + 32⟩ := by
  obtain ⟨k, hk⟩ := p.exists_guard_frac_eq
  have hfinite : (2 : ℚ) ^ 127 ≤ 2 ^ Binary.double.overflowExponent := by
    have hexponent : Binary.double.overflowExponent = (1024 : ℕ) := by decide
    rw [hexponent, zpow_natCast]
    exact pow_le_pow_right₀ one_le_two (by decide)
  have hlo : -(2 : ℚ) ^ Binary.double.overflowExponent ≤ Mantissa.least := by
    rw [Mantissa.least]
    push_cast
    exact neg_le_neg hfinite
  have hhi : (Mantissa.greatest : ℚ) ≤ 2 ^ Binary.double.overflowExponent := by
    rw [Mantissa.greatest]
    push_cast
    linarith
  have hfloor := Binary.double.floorWithin_scale (by decide) h k (by decide) hlo hhi
  rw [guarded, guardBits, hk, zpow_natCast]
  exact congrArg (Fixed.mk · _) hfloor

/-- **A floating-point number is stored** as what is left of it at the guard bits, saturated as a
mantissa there, rounded and brought into the range. -/
theorem ofFloat_eq (p : Precision) {x : Float} {v : ℚ} (h : (Binary.ofFloat x).toRat? = some v) :
    p.ofFloat x = ⟨p.confine (p.rounding.round
      ((Mantissa.saturate ⌊v * 2 ^ (p.frac + 32)⌋ : ℤ) / 2 ^ 32)), p.frac⟩ := by
  have hdrop : p.frac + 32 - p.frac ≤ (Rounding.maxShift : ℤ) := by
    rw [add_sub_cancel_left]
    decide
  rw [ofFloat, p.guarded_eq h, store_eq_quantize (Mantissa.fits_saturate _) hdrop
    fun hlt => by simp only at hlt; omega]
  rw [quantize, Fixed.toRat_mul_two_zpow, Fixed.scaled_of_ge (by simp only; omega)]
  simp only [add_sub_cancel_left, Int.reduceToNat]

/-- A number that is small enough is rounded twice and not saturated. -/
theorem ofFloat_eq_round_guardFloor (p : Precision) {x : Float} {v : ℚ}
    (h : (Binary.ofFloat x).toRat? = some v) (hsmall : |v * 2 ^ (p.frac + 32)| < 2 ^ 127) :
    p.ofFloat x = ⟨p.confine (p.rounding.round (guardFloor (v * 2 ^ p.frac))), p.frac⟩ := by
  have hguard : v * 2 ^ (p.frac + 32) = v * 2 ^ p.frac * 2 ^ 32 := by
    rw [zpow_add₀ two_ne_zero, ← mul_assoc]
    norm_cast
  have hfits : Mantissa.Fits ⌊v * 2 ^ (p.frac + 32)⌋ := by
    obtain ⟨hlo, hhi⟩ := abs_lt.mp hsmall
    exact Mantissa.fits_floor_iff.mpr ⟨hlo.le, hhi⟩
  rw [p.ofFloat_eq h, Mantissa.saturate_of_fits hfits, hguard, guardFloor]

/-- **Where the guard bits decide.**  Let the number be so small that it has a mantissa at the
guard bits.  Going down, and to the nearest with ties up, it is stored as the exact number.  Toward
zero it is too, unless it is just above a negative number of units; then it is stored as that one.
In the other modes it is, unless it is just above a tie. -/
theorem ofFloat_eq_quantize (p : Precision) {x : Float} {v : ℚ}
    (h : (Binary.ofFloat x).toRat? = some v) (hsmall : |v * 2 ^ (p.frac + 32)| < 2 ^ 127) :
    let y := v * 2 ^ p.frac
    (p.rounding = .down ∨ p.rounding = .nearestUp → p.ofFloat x = p.quantize v) ∧
      (p.rounding = .towardZero →
        (¬ (y < 0 ∧ JustAbove 0 y) → p.ofFloat x = p.quantize v) ∧
          (y < 0 → JustAbove 0 y → p.ofFloat x = ⟨p.confine ⌊y⌋, p.frac⟩)) ∧
      (p.rounding = .nearestTowardZero ∨ p.rounding = .nearestAway ∨ p.rounding = .nearestDown ∨
        p.rounding = .nearestEven → ¬ JustAbove (1 / 2) y → p.ofFloat x = p.quantize v) := by
  have hexact (hround : p.rounding.round (guardFloor (v * 2 ^ p.frac)) =
      p.rounding.round (v * 2 ^ p.frac)) : p.ofFloat x = p.quantize v := by
    rw [p.ofFloat_eq_round_guardFloor h hsmall, hround, quantize]
  refine ⟨?_, ?_, ?_⟩
  · intro hmode
    exact hexact (Rounding.round_guardFloor_of_upward hmode)
  · intro hmode
    refine ⟨fun hnot => hexact ?_, fun hy habove => ?_⟩
    · rw [hmode]
      exact (Rounding.round_guardFloor_iff _ _).mpr hnot
    · rw [p.ofFloat_eq_round_guardFloor h hsmall, hmode,
        Rounding.round_guardFloor_towardZero hy habove]
  · intro hmode hnot
    exact hexact (Rounding.round_guardFloor_of_not_justAbove hmode hnot)

/-! ### Numbers in bytes -/

/-- A little below `-2.5` the nearest integer is `-3`, and not the even one.  The guard bits show
it, for the floor goes down as well. -/
theorem ofFloat_belowTie :
    (Binary.ofFloat (Float.ofBits 0xC004000000000800)).toRat? = some (-5 / 2 - 1 / 2 ^ 40) ∧
      |(-5 / 2 - 1 / 2 ^ 40 : ℚ) * 2 ^ (bytes.frac + 32)| < 2 ^ 127 ∧
      ¬ JustAbove (1 / 2) ((-5 / 2 - 1 / 2 ^ 40) * 2 ^ bytes.frac) ∧
      (bytes.withRounding .nearestEven).quantize (-5 / 2 - 1 / 2 ^ 40) = ⟨-3, 0⟩ ∧
      (bytes.withRounding .nearestEven).ofFloat (Float.ofBits 0xC004000000000800) = ⟨-3, 0⟩ := by
  have hvalue : (Binary.ofFloat (Float.ofBits 0xC004000000000800)).toRat? =
      some (-5 / 2 - 1 / 2 ^ 40) := by
    have hdecode : Binary.ofFloat (Float.ofBits 0xC004000000000800) =
        .finite true 0x14000000000800 (-51) := by decide
    rw [hdecode, Binary.Extended.toRat?, Binary.Extended.dyadic]
    norm_num
  have hsmall : |(-5 / 2 - 1 / 2 ^ 40 : ℚ) * 2 ^ (bytes.frac + 32)| < 2 ^ 127 := by
    norm_num [bytes, frac, abs_lt]
  have hnot : ¬ JustAbove (1 / 2) ((-5 / 2 - 1 / 2 ^ 40) * 2 ^ bytes.frac) := by
    norm_num [JustAbove, Int.fract, bytes, frac]
  have hround : (bytes.withRounding .nearestEven).rounding.round
      ((-5 / 2 - 1 / 2 ^ 40) * 2 ^ (bytes.withRounding .nearestEven).frac) = -3 := by
    norm_num [bytes, withRounding, frac, Rounding.round, Int.even_iff]
  have hquantize : (bytes.withRounding .nearestEven).quantize (-5 / 2 - 1 / 2 ^ 40) = ⟨-3, 0⟩ := by
    rw [quantize, hround]
    decide
  obtain ⟨-, -, hnearest⟩ := (bytes.withRounding .nearestEven).ofFloat_eq_quantize hvalue hsmall
  exact ⟨hvalue, hsmall, hnot, hquantize,
    (hnearest (.inr (.inr (.inr rfl))) hnot).trans hquantize⟩

/-- A number a little above `-1` is stored as `-1` and not as zero, toward which it is rounded. -/
theorem ofFloat_aboveMinusOne :
    (Binary.ofFloat (Float.ofBits 0xBFEFFFFFFFFFE000)).toRat? = some (-1 + 1 / 2 ^ 40) ∧
      |(-1 + 1 / 2 ^ 40 : ℚ) * 2 ^ (bytes.frac + 32)| < 2 ^ 127 ∧
      (bytes.withRounding .towardZero).ofFloat (Float.ofBits 0xBFEFFFFFFFFFE000) = ⟨-1, 0⟩ ∧
      (bytes.withRounding .towardZero).quantize (-1 + 1 / 2 ^ 40) = ⟨0, 0⟩ := by
  have hvalue : (Binary.ofFloat (Float.ofBits 0xBFEFFFFFFFFFE000)).toRat? =
      some (-1 + 1 / 2 ^ 40) := by
    have hdecode : Binary.ofFloat (Float.ofBits 0xBFEFFFFFFFFFE000) =
        .finite true 0x1FFFFFFFFFE000 (-53) := by decide
    rw [hdecode, Binary.Extended.toRat?, Binary.Extended.dyadic]
    norm_num
  have hround : (bytes.withRounding .towardZero).rounding.round
      ((-1 + 1 / 2 ^ 40) * 2 ^ (bytes.withRounding .towardZero).frac) = 0 := by
    norm_num [bytes, withRounding, frac, Rounding.round]
  refine ⟨hvalue, ?_, by decide, ?_⟩
  · norm_num [bytes, frac, abs_lt]
  · rw [quantize, hround]
    decide

end Precision

end Depthwise
