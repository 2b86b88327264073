import Depthwise.Proofs.Exact.Monotone
import Depthwise.Proofs.Exact.Operators
import Depthwise.Proofs.Exact.Representations
import Depthwise.Proofs.Exact.Wrapping

/-!
# Symmetric saturation

Symmetric saturation brings what is beyond the range of a signed format to the greatest mantissa or
to its negative.  What is in the range stays, and the range has one more integer below zero than
above.  So the least mantissa of a format is stored, and it is the only one whose negative is not.

* The modes that round `-y` to the negative of what they round `y` to (`Rounding.IsOdd`) are those
  that go to zero or look away from it, and the one that looks at the parity
  (`Rounding.isOdd_iff`).  Their rules are symmetric (`Rounding.Rounds.neg`).
* In these modes a value and its negative are stored symmetrically unless one of them is rounded to
  the least mantissa of the format (`Precision.confine_neg_iff`).

A value itself may have the least mantissa of all, and then its negative saturates and is short of
the exact one by one bit.  Going to zero shows it where the value is not beyond the range.
`Precision.symmetric_store_iff` is what is left of the symmetry, and `Precision.store_leastHalf` is
a half that is stored as the least one.
-/

namespace Depthwise

open Mantissa (Fits)

/-! ### Rounding a negative -/

theorem Nearest.neg {y : ℚ} {n : ℤ} (h : Nearest y n) : Nearest (-y) (-n) := by
  intro m
  have hm := h (-m)
  push_cast at hm ⊢
  rwa [← neg_add', abs_neg, ← sub_eq_add_neg, ← neg_add', abs_neg, ← sub_neg_eq_add]

/-- What is nearer than one half is the only nearest integer. -/
theorem Nearest.eq_of_abs_lt {y : ℚ} {m n : ℤ} (h : Nearest y n) (hm : |y - m| < 1 / 2) :
    n = m := by
  have hn := (h m).trans_lt hm
  rw [abs_lt] at hm hn
  have hlo : (-1 : ℚ) < (n - m : ℤ) := by push_cast; linarith
  have hhi : ((n - m : ℤ) : ℚ) < 1 := by push_cast; linarith
  have hlo' : -1 < n - m := by exact_mod_cast hlo
  have hhi' : n - m < 1 := by exact_mod_cast hhi
  omega

namespace Rounding

variable {mode : Rounding} {y : ℚ} {n : ℤ}

/-- A negative is rounded to the negative. -/
def IsOdd (mode : Rounding) : Prop := ∀ y : ℚ, mode.round (-y) = -mode.round y

/-- The rules that speak of lengths and of parity are symmetric. -/
theorem Rounds.neg (hmode : mode = towardZero ∨ mode = nearestTowardZero ∨ mode = nearestAway ∨
    mode = nearestEven) (h : mode.Rounds y n) : mode.Rounds (-y) (-n) := by
  have hnearest {m : ℤ} (hm : Nearest (-y) m) : Nearest y (-m) := neg_neg y ▸ hm.neg
  rcases hmode with rfl | rfl | rfl | rfl
  · obtain ⟨hsign, hle, hmax⟩ := h
    refine ⟨?_, ?_, fun m hm => ?_⟩
    · push_cast
      rwa [neg_mul_neg]
    · push_cast
      rwa [abs_neg, abs_neg]
    · rw [abs_neg] at hm ⊢
      exact hmax m hm
  · refine ⟨h.1.neg, fun m hm => ?_⟩
    have hle := h.2 (-m) (hnearest hm)
    rwa [abs_neg] at hle ⊢
  · refine ⟨h.1.neg, fun m hm => ?_⟩
    have hle := h.2 (-m) (hnearest hm)
    rwa [abs_neg] at hle ⊢
  · refine ⟨h.1.neg, fun m hm => ?_⟩
    rcases h.2 (-m) (hnearest hm) with heq | heven
    · exact .inl (by omega)
    · exact .inr heven.neg

theorem isOdd_iff : mode.IsOdd ↔
    mode = towardZero ∨ mode = nearestTowardZero ∨ mode = nearestAway ∨ mode = nearestEven := by
  constructor
  · intro h
    -- the other modes bring only one of `1 / 2` and `-1 / 2` to zero
    have hhalf := h (1 / 2)
    cases mode with
    | towardZero => exact .inl rfl
    | nearestTowardZero => exact .inr (.inl rfl)
    | nearestAway => exact .inr (.inr (.inl rfl))
    | nearestEven => exact .inr (.inr (.inr rfl))
    | down | nearestUp | nearestDown => norm_num [round] at hhalf
  · intro hmode y
    exact (rounds_iff.mp ((mode.rounds_round y).neg hmode)).symm

/-- A little below a positive integer the way to zero and the nearest integer part. -/
theorem round_sub_of_isOdd (hodd : mode.IsOdd) {m : ℤ} {e : ℚ} (hm : 0 < m) (he : 0 < e)
    (hhalf : e < 1 / 2) : mode.round (m - e) = if mode = towardZero then m - 1 else m := by
  have hone : (1 : ℚ) ≤ m := by exact_mod_cast hm
  have hnear : |(m - e : ℚ) - m| < 1 / 2 := abs_lt.mpr ⟨by linarith, by linarith⟩
  have hrounds := mode.rounds_round (m - e)
  rcases isOdd_iff.mp hodd with rfl | rfl | rfl | rfl
  · have hfloor : ⌊(m - e : ℚ)⌋ = m - 1 :=
      Int.floor_eq_iff.mpr ⟨by push_cast; linarith, by push_cast; linarith⟩
    rw [if_pos rfl, round, if_neg (by linarith), hfloor]
  · exact hrounds.1.eq_of_abs_lt hnear
  · exact hrounds.1.eq_of_abs_lt hnear
  · exact hrounds.1.eq_of_abs_lt hnear

end Rounding

/-- Every value but those of the least mantissa has its negative. -/
theorem Fixed.toRat_neg_eq {x : Fixed} (hx : Fits x.raw) (h : x.raw ≠ Mantissa.least) :
    (-x).toRat = -x.toRat := by
  show (Fixed.mk (Mantissa.saturate (-x.raw)) x.frac).toRat = _
  rw [Mantissa.saturate_of_fits (Mantissa.fits_neg hx h), toRat, toRat]
  push_cast
  ring

namespace Precision

variable {p : Precision} {x : Fixed}

/-! ### What a value is rounded to -/

/-- The value with no more than `maxShift` fractional bits to be dropped. -/
def capped (p : Precision) (x : Fixed) : Fixed :=
  ⟨x.raw, min x.frac (p.frac + Rounding.maxShift)⟩

/-- The whole number of units a value is rounded to. -/
def rounded (p : Precision) (x : Fixed) : ℤ := p.units (p.capped x).toRat

theorem rounded_eq (p : Precision) (x : Fixed) :
    p.rounded x = p.rounding.round ((p.capped x).scaled p.frac) := by
  rw [rounded, units, Fixed.toRat_mul_two_zpow]

/-- A format that does not wrap brings that number into its range. -/
theorem store_raw_of_ne_wrap (h : p.overflow ≠ .wrap) (hx : Fits x.raw) :
    (p.store x).raw = p.confine (p.rounded x) := by
  have hdrop : (p.capped x).frac - p.frac ≤ Rounding.maxShift :=
    sub_le_iff_le_add'.mpr (min_le_right _ _)
  have hcapped : p.store (p.capped x) = p.quantize (p.capped x).toRat :=
    store_eq_quantize_of_ne_wrap h hx (.inl hdrop)
  rw [p.store_eq_store_capped x]
  exact congrArg Fixed.raw hcapped

theorem rounded_neg (hodd : p.rounding.IsOdd) (hx : Fits x.raw) (h : x.raw ≠ Mantissa.least) :
    p.rounded (-x) = -p.rounded x := by
  have hneg : p.capped (-x) = -p.capped x := rfl
  rw [rounded, hneg, Fixed.toRat_neg_eq (x := p.capped x) hx h, rounded, units, units, neg_mul,
    hodd]

/-! ### The least mantissa of all -/

section Least

variable (hleast : x.raw = Mantissa.least)

include hleast

theorem scaled_capped_of_least :
    (p.capped x).scaled p.frac = -2 ^ 127 * 2 ^ (p.frac - (p.capped x).frac) ∧
      (p.capped (-x)).scaled p.frac = (2 ^ 127 - 1) * 2 ^ (p.frac - (p.capped x).frac) := by
  have hraw : (p.capped x).raw = Mantissa.least := hleast
  have hneg : (p.capped (-x)).raw = Mantissa.greatest := by
    show Mantissa.saturate (-x.raw) = _
    rw [hleast]
    decide
  have hfrac : (p.capped (-x)).frac = (p.capped x).frac := rfl
  rw [Fixed.scaled, Fixed.scaled, hraw, hneg, hfrac, Mantissa.least, Mantissa.greatest]
  constructor <;> norm_num

/-- Such a value lies beyond the range if it has not many fractional bits too many, and so does its
negative, or it is the bound. -/
theorem rounded_of_least_of_le (hfrac : (p.capped x).frac ≤ p.frac + 95) :
    p.rounded x < p.minRaw ∧ p.maxRaw ≤ p.rounded (-x) := by
  obtain ⟨hmin, hmax⟩ := p.range_lt
  obtain ⟨hscaled, hscaled'⟩ := p.scaled_capped_of_least hleast
  have hpow : (2 : ℚ) ^ (-95 : ℤ) ≤ 2 ^ (p.frac - (p.capped x).frac) :=
    zpow_le_zpow_right₀ one_le_two (by omega)
  have hlow : -2 ^ 127 * 2 ^ (p.frac - (p.capped x).frac) ≤ ((-2 ^ 32 : ℤ) : ℚ) := by
    norm_num at hpow ⊢
    linarith
  have hhigh : ((2 ^ 32 - 1 : ℤ) : ℚ) ≤ (2 ^ 127 - 1) * 2 ^ (p.frac - (p.capped x).frac) := by
    norm_num at hpow ⊢
    linarith
  have hround := p.rounding.round_mono hlow
  have hround' := p.rounding.round_mono hhigh
  rw [Rounding.round_intCast] at hround hround'
  rw [rounded_eq, rounded_eq, hscaled, hscaled']
  constructor <;> omega

/-- Otherwise it is a whole number of units, and what is missing of its negative is a small part of
one. -/
theorem rounded_of_least_of_ge (hodd : p.rounding.IsOdd)
    (hfrac : p.frac + 96 ≤ (p.capped x).frac) :
    p.rounded x < 0 ∧
      p.rounded (-x) =
        if p.rounding = .towardZero then -p.rounded x - 1 else -p.rounded x := by
  have hcap : (p.capped x).frac ≤ p.frac + 126 := min_le_right _ _
  obtain ⟨hscaled, hscaled'⟩ := p.scaled_capped_of_least hleast
  obtain ⟨k, hk⟩ := Int.eq_ofNat_of_zero_le (by omega : 0 ≤ p.frac + 127 - (p.capped x).frac)
  have hshift : p.frac - (p.capped x).frac = k - 127 := by omega
  have hunits : (2 : ℚ) ^ 127 * 2 ^ (p.frac - (p.capped x).frac) = (2 ^ k : ℤ) := by
    rw [hshift, zpow_sub₀ two_ne_zero, zpow_natCast]
    push_cast
    field_simp
    norm_cast
  have hpart : (0 : ℚ) < 2 ^ (p.frac - (p.capped x).frac) := zpow_pos two_pos _
  have hhalf : (2 : ℚ) ^ (p.frac - (p.capped x).frac) < 1 / 2 := by
    have hle : (2 : ℚ) ^ (p.frac - (p.capped x).frac) ≤ 2 ^ (-96 : ℤ) :=
      zpow_le_zpow_right₀ one_le_two (by omega)
    exact hle.trans_lt (by norm_num)
  have hround : p.rounded x = -2 ^ k := by
    rw [rounded_eq, hscaled, neg_mul, hunits, ← Int.cast_neg, Rounding.round_intCast]
  have hround' : p.rounded (-x) = if p.rounding = .towardZero then 2 ^ k - 1 else 2 ^ k := by
    rw [rounded_eq, hscaled', sub_mul, one_mul, hunits]
    exact Rounding.round_sub_of_isOdd hodd (by positivity) hpart hhalf
  rw [hround, hround', neg_neg]
  exact ⟨neg_neg_of_pos (by positivity), rfl⟩

end Least

/-! ### The symmetric range -/

section Signed

variable (hsigned : p.isSigned = true) (hmode : p.overflow = .symmetric)

include hsigned hmode

/-- The least mantissa of the format stays; every other number comes to the symmetric range. -/
theorem confine_symmetric (n : ℤ) :
    p.confine n = if n = p.minRaw then p.minRaw else max (-p.maxRaw) (min n p.maxRaw) := by
  have hmin := minRaw_of_isSigned hsigned
  have ⟨hlo, hhi⟩ := p.holds_zero
  simp only [confine, hmode, hsigned, reduceIte, Holds]
  split_ifs <;> omega

/-- A number and its negative come to a mantissa and its negative, unless one of them is the least
mantissa. -/
theorem confine_neg_iff (n : ℤ) :
    p.confine (-n) = -p.confine n ↔ n ≠ p.minRaw ∧ n ≠ -p.minRaw := by
  have hmin := minRaw_of_isSigned hsigned
  have ⟨hlo, hhi⟩ := p.holds_zero
  rw [confine_symmetric hsigned hmode, confine_symmetric hsigned hmode]
  split_ifs <;> omega

theorem store_neg_iff_of_ne_least (hodd : p.rounding.IsOdd) (hx : Fits x.raw)
    (h : x.raw ≠ Mantissa.least) :
    (p.store (-x)).raw = -(p.store x).raw ↔
      p.rounded x ≠ p.minRaw ∧ p.rounded x ≠ -p.minRaw := by
  have hwrap : p.overflow ≠ .wrap := by simp [hmode]
  rw [store_raw_of_ne_wrap hwrap hx, store_raw_of_ne_wrap hwrap (Mantissa.fits_saturate _),
    rounded_neg hodd hx h, confine_neg_iff hsigned hmode]

/-- What saturates in place of the negative of the least mantissa of all is short of it by one bit.
This is seen only toward zero and only in the range. -/
theorem store_neg_iff_of_least (hodd : p.rounding.IsOdd) (hleast : x.raw = Mantissa.least) :
    (p.store (-x)).raw = -(p.store x).raw ↔
      p.rounded x ≠ p.minRaw ∧ p.rounded x ≠ -p.minRaw ∧
        (p.rounding = .towardZero → p.rounded x < p.minRaw) := by
  have hwrap : p.overflow ≠ .wrap := by simp [hmode]
  have hmin := minRaw_of_isSigned hsigned
  have ⟨hlo, hhi⟩ := p.holds_zero
  have hx : Fits x.raw := hleast ▸ (by decide : Fits Mantissa.least)
  rw [store_raw_of_ne_wrap hwrap hx, store_raw_of_ne_wrap hwrap (Mantissa.fits_saturate _)]
  rcases le_or_gt (p.capped x).frac (p.frac + 95) with hfar | hnear
  · obtain ⟨hlt, hge⟩ := rounded_of_least_of_le hleast hfar
    rw [confine_symmetric hsigned hmode, confine_symmetric hsigned hmode]
    split_ifs <;> omega
  · obtain ⟨hneg, hround⟩ := rounded_of_least_of_ge hleast hodd (by omega)
    by_cases hzero : p.rounding = .towardZero
    · rw [hround, if_pos hzero, confine_symmetric hsigned hmode, confine_symmetric hsigned hmode]
      simp only [hzero, forall_const]
      split_ifs <;> omega
    · rw [hround, if_neg hzero, confine_neg_iff hsigned hmode]
      simp only [hzero, false_implies, and_true]

/-- **How far symmetric saturation is symmetric.**  A signed format stores no more than the greatest
mantissa, and no less than its negative unless the value is rounded to the least mantissa, which is
stored as it is.  In the modes that round negatives to negatives, a value and its negative are
stored symmetrically exactly when neither is rounded to the least mantissa.  Toward zero there is
one value more to be excepted, the least mantissa of all, whose negative saturates: it and its
negative are stored symmetrically only if it is rounded to less than the range.  The difference
`x.frac - p.frac` is taken to be a number of fractional bits (`Fixed.FracFits`). -/
theorem symmetric_store_iff (hx : Fits x.raw) :
    let n := p.rounded x
    ((p.store x).raw ≤ p.maxRaw ∧ (-p.maxRaw ≤ (p.store x).raw ↔ n ≠ p.minRaw) ∧
        (n = p.minRaw → (p.store x).raw = p.minRaw)) ∧
      (p.rounding = .towardZero ∨ p.rounding = .nearestTowardZero ∨ p.rounding = .nearestAway ∨
          p.rounding = .nearestEven →
        ((p.store (-x)).raw = -(p.store x).raw ↔ n ≠ p.minRaw ∧ n ≠ -p.minRaw ∧
          (x.raw = Mantissa.least → p.rounding = .towardZero → n < p.minRaw))) := by
  have hmin := minRaw_of_isSigned hsigned
  have ⟨hlo, hhi⟩ := p.holds_zero
  refine ⟨?_, fun hmodes => ?_⟩
  · rw [store_raw_of_ne_wrap (by simp [hmode]) hx, confine_symmetric hsigned hmode]
    split_ifs <;> omega
  · have hodd := Rounding.isOdd_iff.mpr hmodes
    by_cases hleast : x.raw = Mantissa.least
    · rw [store_neg_iff_of_least hsigned hmode hodd hleast]
      simp only [hleast, forall_const]
    · rw [store_neg_iff_of_ne_least hsigned hmode hodd hx hleast]
      simp only [hleast, false_implies, and_true]

end Signed

/-! ### Halves -/

/-- `-4.25` is rounded to `-4.5`, which is beyond the range, and `4.25` to `4.5`. -/
theorem symmetric_store_halves :
    symmetricHalves.isSigned = true ∧ symmetricHalves.overflow = .symmetric ∧
      symmetricHalves.rounding = .nearestAway ∧ Fits (-34) ∧
      symmetricHalves.rounded ⟨-34, 3⟩ = -9 ∧ symmetricHalves.minRaw = -8 ∧
      -symmetricHalves.maxRaw ≤ (symmetricHalves.store ⟨-34, 3⟩).raw ∧
      (symmetricHalves.store (-⟨-34, 3⟩)).raw = -(symmetricHalves.store ⟨-34, 3⟩).raw := by
  have hrounded : symmetricHalves.rounded ⟨-34, 3⟩ = -9 := by
    norm_num [rounded_eq, capped, Fixed.scaled, symmetricHalves, frac, Rounding.maxShift,
      Rounding.round]
  have hmin : symmetricHalves.minRaw = -8 := by decide
  obtain ⟨⟨-, hlow, -⟩, hneg⟩ :=
    symmetric_store_iff (p := symmetricHalves) rfl rfl (x := ⟨-34, 3⟩) (by decide)
  rw [hrounded, hmin] at hlow hneg
  exact ⟨rfl, rfl, rfl, by decide, hrounded, hmin, hlow.mpr (by decide),
    (hneg (.inr (.inr (.inl rfl)))).mpr ⟨by decide, by decide, by decide⟩⟩

/-- The least of the halves stays, though its negative comes to the greatest.  And toward zero `-1`
with 127 fractional bits is stored as `-1`, but its negative, which is short of `1` by one bit, as
one half. -/
theorem store_leastHalf :
    symmetricHalves.isSigned = true ∧ symmetricHalves.overflow = .symmetric ∧
      symmetricHalves.rounding = .nearestAway ∧ symmetricHalves.frac = 1 ∧ Fits (-8) ∧
      symmetricHalves.store ⟨-8, 1⟩ = ⟨-8, 1⟩ ∧ ¬ -symmetricHalves.maxRaw ≤ -8 ∧
      -Fixed.mk (-8) 1 = ⟨8, 1⟩ ∧ symmetricHalves.store ⟨8, 1⟩ = ⟨7, 1⟩ ∧
      -Fixed.mk Mantissa.least 127 = ⟨Mantissa.greatest, 127⟩ ∧
      (symmetricHalves.withRounding .towardZero).store ⟨Mantissa.least, 127⟩ = ⟨-2, 1⟩ ∧
      (symmetricHalves.withRounding .towardZero).store ⟨Mantissa.greatest, 127⟩ = ⟨1, 1⟩ := by
  decide

end Precision

end Depthwise
