import Depthwise.Fixed.Precision
import Depthwise.Proofs.Exact.Rounding
import Mathlib.Data.Int.ModEq

/-!
# Storing is rounding, then the overflow rule

A precision stores an exact number `v` as the rounding of `v * 2 ^ frac`, brought into its range
(`Precision.quantize`).  The overflow rule is `Precision.confine`.  An integer of the range stays,
and for every other one the mode names exactly one integer (`Precision.confines_iff`): the one of
the range with the same low bits, the nearest of the range, zero, or a symmetric bound.

A fixed-point value is stored as the number it denotes, rounded and then saturated as a mantissa
(`Precision.store_eq_saturate`), provided that at most `maxShift` low bits are dropped or that the
mantissa is short.  **Storing is exact** (`Precision.store_eq_quantize`) where the shifted mantissa
is one as well when there are low bits to be added.  In a format that does not wrap it is exact also
where that saturates (`Precision.store_eq_quantize_of_ne_wrap`).
-/

namespace Depthwise

/-! ### The number of a fixed-point value -/

/-- The number a value denotes. -/
def Fixed.toRat (x : Fixed) : ℚ := x.raw * 2 ^ (-x.frac)

/-- That number in units of `2 ^ (-frac)`. -/
def Fixed.scaled (x : Fixed) (frac : ℤ) : ℚ := x.raw * 2 ^ (frac - x.frac)

theorem Fixed.toRat_mul_two_zpow (x : Fixed) (frac : ℤ) : x.toRat * 2 ^ frac = x.scaled frac := by
  rw [toRat, scaled, mul_assoc, ← zpow_add₀ two_ne_zero, neg_add_eq_sub]

theorem Fixed.scaled_of_le {x : Fixed} {frac : ℤ} (h : x.frac ≤ frac) :
    x.scaled frac = (x.raw * 2 ^ (frac - x.frac).toNat : ℤ) := by
  obtain ⟨k, hk⟩ := Int.eq_ofNat_of_zero_le (sub_nonneg.mpr h)
  rw [scaled, hk, Int.toNat_natCast, zpow_natCast]
  push_cast
  rfl

theorem Fixed.scaled_of_ge {x : Fixed} {frac : ℤ} (h : frac ≤ x.frac) :
    x.scaled frac = x.raw / 2 ^ (x.frac - frac).toNat := by
  obtain ⟨k, hk⟩ := Int.eq_ofNat_of_zero_le (sub_nonneg.mpr h)
  have hneg : frac - x.frac = -(k : ℤ) := by omega
  rw [scaled, hk, hneg, Int.toNat_natCast, zpow_neg, zpow_natCast, div_eq_mul_inv]

/-- A shift beyond the places that are looked at saturates as the exact one does. -/
theorem Mantissa.shiftLeft_eq (raw : ℤ) (shift : ℕ) :
    shiftLeft raw shift = saturate (raw * 2 ^ shift) := by
  rw [shiftLeft]
  rcases Nat.le_total shift 127 with hs | hs
  · rw [Nat.min_eq_left hs]
  · rw [Nat.min_eq_right hs]
    have hpow : (2 : ℤ) ^ 127 ≤ 2 ^ shift := pow_le_pow_right₀ (by decide) hs
    unfold saturate least greatest
    rcases lt_trichotomy raw 0 with hneg | rfl | hpos
    · have hle : raw * 2 ^ shift ≤ -1 * 2 ^ shift :=
        mul_le_mul_of_nonneg_right (by omega) (by positivity)
      omega
    · rw [zero_mul, zero_mul]
    · have hle : 1 * 2 ^ shift ≤ raw * 2 ^ shift :=
        mul_le_mul_of_nonneg_right (by omega) (by positivity)
      omega

theorem Mantissa.saturate_of_gt {n : ℤ} (h : greatest < n) : saturate n = greatest := by
  unfold saturate least greatest at *
  omega

theorem Mantissa.saturate_of_lt {n : ℤ} (h : n < least) : saturate n = least := by
  unfold saturate least greatest at *
  omega

/-- What a mantissa is rounded to is one, unless bits are added that it has no room for. -/
theorem Rounding.fits_round_scaled (mode : Rounding) {x : Fixed} {frac : ℤ}
    (hx : Mantissa.Fits x.raw)
    (hgrow : x.frac < frac → Mantissa.Fits (x.raw * 2 ^ (frac - x.frac).toNat)) :
    Mantissa.Fits (mode.round (x.scaled frac)) := by
  rcases lt_or_ge x.frac frac with hlt | hge
  · rw [Fixed.scaled_of_le hlt.le, round_intCast]
    exact hgrow hlt
  · obtain ⟨hlo, hhi⟩ := hx
    obtain ⟨hfloor, hceil⟩ := mode.round_bounds (x.scaled frac)
    have hone : (1 : ℚ) ≤ 2 ^ (x.frac - frac).toNat := one_le_pow₀ (by norm_num)
    have hlo' : (Mantissa.least : ℚ) ≤ x.raw := by exact_mod_cast hlo
    have hhi' : (x.raw : ℚ) ≤ Mantissa.greatest := by exact_mod_cast hhi
    have hneg : (Mantissa.least : ℚ) ≤ 0 := by exact_mod_cast (by decide : Mantissa.least ≤ 0)
    have hpos : (0 : ℚ) ≤ Mantissa.greatest := by
      exact_mod_cast (by decide : 0 ≤ Mantissa.greatest)
    rw [Fixed.scaled_of_ge hge] at hfloor hceil ⊢
    refine ⟨(Int.le_floor.mpr ?_).trans hfloor, hceil.trans (Int.ceil_le.mpr ?_)⟩
    · rw [le_div_iff₀ (by positivity)]
      exact (mul_le_of_one_le_right hneg hone).trans hlo'
    · rw [div_le_iff₀ (by positivity)]
      exact hhi'.trans (le_mul_of_one_le_right hpos hone)

namespace Precision

variable {p : Precision}

/-! ### The range -/

/-- The integers a format stores. -/
def Holds (p : Precision) (n : ℤ) : Prop := p.minRaw ≤ n ∧ n ≤ p.maxRaw

instance (p : Precision) (n : ℤ) : Decidable (p.Holds n) := inferInstanceAs (Decidable (_ ∧ _))

/-- The range has `2 ^ width` integers. -/
theorem maxRaw_eq (p : Precision) : p.maxRaw = p.minRaw + 2 ^ p.width - 1 := by
  have hw := p.two_pow_width
  unfold maxRaw minRaw
  split <;> omega

theorem holds_zero (p : Precision) : p.Holds 0 := by
  have hpos : (0 : ℤ) < 2 ^ (p.width - 1) := by positivity
  have hpos' : (0 : ℤ) < 2 ^ p.width := by positivity
  unfold Holds maxRaw minRaw
  split <;> omega

/-- The range is far within the mantissas. -/
theorem range_lt (p : Precision) : -2 ^ 32 < p.minRaw ∧ p.maxRaw < 2 ^ 32 := by
  have hpow : (2 : ℤ) ^ p.width ≤ 2 ^ 32 := pow_le_pow_right₀ (by decide) p.width_le
  have hmax := p.maxRaw_eq
  have ⟨hlo, hhi⟩ := p.holds_zero
  constructor <;> omega

theorem minRaw_of_isSigned (h : p.isSigned = true) : p.minRaw = -p.maxRaw - 1 := by
  rw [minRaw, maxRaw, if_pos h, if_pos h]
  omega

/-- Two integers of the range with the same low bits are equal. -/
theorem eq_of_modEq {m n : ℤ} (hm : p.Holds m) (hn : p.Holds n) (h : m ≡ n [ZMOD 2 ^ p.width]) :
    m = n := by
  obtain ⟨hm₁, hm₂⟩ := hm
  obtain ⟨hn₁, hn₂⟩ := hn
  have hmax := p.maxRaw_eq
  have hlt : |n - m| < 2 ^ p.width := abs_lt.mpr ⟨by omega, by omega⟩
  have hzero := Int.eq_zero_of_abs_lt_dvd h.dvd hlt
  omega

/-! ### The overflow rule -/

/-- `m` is the integer of the range nearest to `n`. -/
def HoldsNearest (p : Precision) (n m : ℤ) : Prop :=
  p.Holds m ∧ ∀ k, p.Holds k → (n - m).natAbs ≤ (n - k).natAbs

/-- `n` becomes `m` in a format: an integer of the range stays, and another one becomes what the
overflow mode says. -/
def Confines (p : Precision) (n m : ℤ) : Prop :=
  if p.Holds n then m = n
  else match p.overflow with
    | .wrap => p.Holds m ∧ m ≡ n [ZMOD 2 ^ p.width]
    | .saturate => p.HoldsNearest n m
    | .zero => m = 0
    | .symmetric =>
      if p.isSigned then m = if n < p.minRaw then -p.maxRaw else p.maxRaw
      else p.HoldsNearest n m

/-- The integer `n` becomes in a format. -/
def confine (p : Precision) (n : ℤ) : ℤ :=
  match p.overflow with
  | .wrap => p.minRaw + (n - p.minRaw) % 2 ^ p.width
  | .saturate => max p.minRaw (min n p.maxRaw)
  | .zero => if p.Holds n then n else 0
  | .symmetric =>
    if p.Holds n then n
    else max (if p.isSigned then -p.maxRaw else p.minRaw) (min n p.maxRaw)

theorem holds_wrap (p : Precision) (n : ℤ) :
    p.Holds (p.minRaw + (n - p.minRaw) % 2 ^ p.width) := by
  have hpos : (0 : ℤ) < 2 ^ p.width := by positivity
  have h₀ := Int.emod_nonneg (n - p.minRaw) hpos.ne'
  have h₁ := Int.emod_lt_of_pos (n - p.minRaw) hpos
  have hmax := p.maxRaw_eq
  exact ⟨by omega, by omega⟩

theorem wrap_modEq (p : Precision) (n : ℤ) :
    p.minRaw + (n - p.minRaw) % 2 ^ p.width ≡ n [ZMOD 2 ^ p.width] := by
  have h := (Int.mod_modEq (n - p.minRaw) (2 ^ p.width)).add_left p.minRaw
  rwa [add_sub_cancel] at h

theorem confine_of_holds {n : ℤ} (h : p.Holds n) : p.confine n = n := by
  have ⟨h₁, h₂⟩ := h
  unfold confine
  split
  · exact eq_of_modEq (p.holds_wrap n) h (p.wrap_modEq n)
  · rw [min_eq_left h₂, max_eq_right h₁]
  · exact if_pos h
  · exact if_pos h

/-- The nearest integer of the range is the one a clamp gives. -/
theorem holdsNearest_iff {n m : ℤ} :
    p.HoldsNearest n m ↔ m = max p.minRaw (min n p.maxRaw) := by
  have ⟨h₁, h₂⟩ := p.holds_zero
  unfold HoldsNearest Holds
  constructor
  · rintro ⟨hm, hnear⟩
    have hclamp := hnear (max p.minRaw (min n p.maxRaw)) (by omega)
    omega
  · rintro rfl
    exact ⟨by omega, fun k hk => by omega⟩

/-- The overflow rule has one answer. -/
theorem confines_iff {n m : ℤ} : p.Confines n m ↔ m = p.confine n := by
  unfold Confines
  split
  · next h => rw [confine_of_holds h]
  · next h =>
    unfold confine
    cases p.overflow with
    | wrap =>
      constructor
      · rintro ⟨hm, hmod⟩
        exact eq_of_modEq hm (p.holds_wrap n) (hmod.trans (p.wrap_modEq n).symm)
      · rintro rfl
        exact ⟨p.holds_wrap n, p.wrap_modEq n⟩
    | saturate => exact holdsNearest_iff
    | zero => simp only [if_neg h]
    | symmetric =>
      simp only [if_neg h]
      have hrange : ¬ (p.minRaw ≤ n ∧ n ≤ p.maxRaw) := h
      have ⟨h₁, h₂⟩ := p.holds_zero
      cases hs : p.isSigned with
      | true =>
        have hmin := minRaw_of_isSigned hs
        simp only [reduceIte]
        split <;> omega
      | false => exact holdsNearest_iff

/-- A format brings a mantissa into its range by its overflow rule. -/
theorem resolve_eq_confine (p : Precision) (n : ℤ) : p.resolve n = p.confine n := by
  by_cases h : p.Holds n
  · rw [resolve_of_mem h, confine_of_holds h]
  · have hrange : ¬ (p.minRaw ≤ n ∧ n ≤ p.maxRaw) := h
    have ⟨h₁, h₂⟩ := p.holds_zero
    have hmem := p.resolve_mem n
    rw [← confines_iff, Confines, if_neg h]
    rw [resolve, if_neg hrange] at hmem ⊢
    cases hmode : p.overflow with
    | wrap =>
      rw [hmode] at hmem
      refine ⟨hmem, ?_⟩
      have hlow : n % 2 ^ p.width ≡ n [ZMOD 2 ^ p.width] := Int.mod_modEq n _
      simp only
      split
      · exact (Int.sub_modulus_modEq_iff).mpr hlow
      · exact hlow
    | saturate =>
      refine holdsNearest_iff.mpr ?_
      simp only
      split <;> omega
    | zero => rfl
    | symmetric =>
      cases hs : p.isSigned with
      | true => rfl
      | false =>
        refine holdsNearest_iff.mpr ?_
        simp only [Bool.false_eq_true, reduceIte]
        split <;> omega

/-- What wraps keeps its low bits. -/
theorem confine_modEq (h : p.overflow = .wrap) (n : ℤ) : p.confine n ≡ n [ZMOD 2 ^ p.width] := by
  simp only [confine, h]
  exact p.wrap_modEq n

/-- The last bit is one of them. -/
theorem two_dvd_iff_of_modEq {m n : ℤ} (h : m ≡ n [ZMOD 2 ^ p.width]) : 2 ∣ m ↔ 2 ∣ n := by
  have hwidth := p.width_pos
  have hparity := h.of_dvd (dvd_pow_self 2 (by omega))
  unfold Int.ModEq at hparity
  omega

/-- What does not wrap depends only on the side of the range a number lies on. -/
theorem confine_of_maxRaw_lt (h : p.overflow ≠ .wrap) {m n : ℤ} (hm : p.maxRaw < m)
    (hn : p.maxRaw < n) : p.confine m = p.confine n := by
  have hm' : ¬ p.Holds m := fun hold => absurd hold.2 (not_le.mpr hm)
  have hn' : ¬ p.Holds n := fun hold => absurd hold.2 (not_le.mpr hn)
  unfold confine
  cases hmode : p.overflow with
  | wrap => exact absurd hmode h
  | saturate => simp only [min_eq_right hm.le, min_eq_right hn.le]
  | zero => simp only [if_neg hm', if_neg hn']
  | symmetric => simp only [if_neg hm', if_neg hn', min_eq_right hm.le, min_eq_right hn.le]

theorem confine_of_lt_minRaw (h : p.overflow ≠ .wrap) {m n : ℤ} (hm : m < p.minRaw)
    (hn : n < p.minRaw) : p.confine m = p.confine n := by
  have ⟨hmin, hmax⟩ := p.holds_zero
  have hm' : ¬ p.Holds m := fun hold => absurd hold.1 (not_le.mpr hm)
  have hn' : ¬ p.Holds n := fun hold => absurd hold.1 (not_le.mpr hn)
  unfold confine
  cases hmode : p.overflow with
  | wrap => exact absurd hmode h
  | saturate => simp only; omega
  | zero => simp only [if_neg hm', if_neg hn']
  | symmetric =>
      simp only [if_neg hm', if_neg hn']
      cases hs : p.isSigned with
      | true =>
          have hmin' := minRaw_of_isSigned hs
          simp only [reduceIte]
          omega
      | false =>
          simp only [Bool.false_eq_true, reduceIte]
          omega

/-- Saturation as a mantissa is seen only by what wraps: a number beyond the mantissas is beyond the
range on the same side. -/
theorem confine_saturate (h : p.overflow ≠ .wrap) (n : ℤ) :
    p.confine (Mantissa.saturate n) = p.confine n := by
  obtain ⟨hmin, hmax⟩ := p.range_lt
  have hleast : Mantissa.least < p.minRaw := hmin.trans' (by decide)
  have hgreatest : p.maxRaw < Mantissa.greatest := hmax.trans (by decide)
  by_cases hn : Mantissa.Fits n
  · rw [Mantissa.saturate_of_fits hn]
  · rcases lt_or_ge Mantissa.greatest n with hgt | hle
    · rw [Mantissa.saturate_of_gt hgt]
      exact confine_of_maxRaw_lt h hgreatest (hgreatest.trans hgt)
    · have hlt : n < Mantissa.least := not_le.mp fun hge => hn ⟨hge, hle⟩
      rw [Mantissa.saturate_of_lt hlt]
      exact confine_of_lt_minRaw h hleast (hlt.trans hleast)

/-! ### Storing a number -/

/-- The exact number `v` in a format: first the rounding, then the overflow rule. -/
def quantize (p : Precision) (v : ℚ) : Fixed :=
  ⟨p.confine (p.rounding.round (v * 2 ^ p.frac)), p.frac⟩

/-- Values that are rounded as the numbers they denote: the cap on shifts is not reached, or the
mantissa is so short that it makes no difference. -/
def DropsExactly (p : Precision) (x : Fixed) : Prop :=
  x.frac - p.frac ≤ Rounding.maxShift ∨ |x.raw| < 2 ^ 125

/-- **What is stored**: the rounded number, saturated as a mantissa, in the range of the format. -/
theorem store_eq_saturate {x : Fixed} (hx : Mantissa.Fits x.raw) (hexact : p.DropsExactly x) :
    p.store x =
      ⟨p.confine (Mantissa.saturate (p.rounding.round (x.scaled p.frac))), p.frac⟩ := by
  rw [store, ← resolve_eq_confine]
  congr 2
  split
  · next hshift =>
    have hround : Mantissa.Fits (p.rounding.round (x.scaled p.frac)) :=
      p.rounding.fits_round_scaled hx fun hlt => by omega
    rw [Mantissa.saturate_of_fits hround, Fixed.scaled_of_ge (by omega)]
    rcases hexact with hdrop | hraw
    · exact p.rounding.shiftRight_eq_round x.raw (by omega)
    · exact p.rounding.shiftRight_eq_round_of_abs_lt hraw _
  · next hshift =>
    rw [Mantissa.shiftLeft_eq, neg_sub, Fixed.scaled_of_le (by omega), Rounding.round_intCast]

/-- **Storing is exact**, if no more than `maxShift` bits are dropped and the bits added leave a
mantissa. -/
theorem store_eq_quantize {x : Fixed} (hx : Mantissa.Fits x.raw)
    (hdrop : x.frac - p.frac ≤ Rounding.maxShift)
    (hgrow : x.frac < p.frac → Mantissa.Fits (x.raw * 2 ^ (p.frac - x.frac).toNat)) :
    p.store x = p.quantize x.toRat := by
  rw [store_eq_saturate hx (.inl hdrop), quantize, x.toRat_mul_two_zpow,
    Mantissa.saturate_of_fits (p.rounding.fits_round_scaled hx hgrow)]

/-- A format that does not wrap stores the exact number also where the mantissa saturates. -/
theorem store_eq_quantize_of_ne_wrap (h : p.overflow ≠ .wrap) {x : Fixed}
    (hx : Mantissa.Fits x.raw) (hexact : p.DropsExactly x) : p.store x = p.quantize x.toRat := by
  rw [store_eq_saturate hx hexact, confine_saturate h, quantize, x.toRat_mul_two_zpow]

/-- If at most 126 bits are dropped and the bits added leave a mantissa, how many they are is itself a
number of fractional bits.  Only a zero may lack more bits than that. -/
theorem fracFits_sub {x : Fixed} (hzero : x.raw ≠ 0) (hdrop : x.frac - p.frac ≤ 126)
    (hgrow : x.frac < p.frac → Mantissa.Fits (x.raw * 2 ^ (p.frac - x.frac).toNat)) :
    Fixed.FracFits (x.frac - p.frac) := by
  unfold Fixed.FracFits
  rcases lt_or_ge x.frac p.frac with hlt | hge
  · obtain ⟨hlo, hhi⟩ := hgrow hlt
    have habs : |x.raw * 2 ^ (p.frac - x.frac).toNat| ≤ 2 ^ 127 :=
      abs_le.mpr ⟨hlo, hhi.trans (by decide)⟩
    have hpow : (2 : ℤ) ^ (p.frac - x.frac).toNat ≤ 2 ^ 127 := by
      rw [abs_mul, abs_of_pos (pow_pos (by decide : (0 : ℤ) < 2) _)] at habs
      exact (le_mul_of_one_le_left (by positivity) (Int.one_le_abs hzero)).trans habs
    have hle := (pow_le_pow_iff_right₀ (by decide : (1 : ℤ) < 2)).mp hpow
    omega
  · omega

/-- What a format stores of a mantissa, if at most 126 bits are dropped and the bits added leave a
mantissa, and what the two rules are: the rounding and the integer of the range are the only ones
their modes admit.  The difference `x.frac - p.frac` is taken to be a number of fractional bits
(`Fixed.FracFits`), as it is of every mantissa but zero (`fracFits_sub`). -/
theorem store_eq_confine_round {x : Fixed} (hx : Mantissa.Fits x.raw)
    (hdrop : x.frac - p.frac ≤ 126)
    (hgrow : x.frac < p.frac → Mantissa.Fits (x.raw * 2 ^ (p.frac - x.frac).toNat)) :
    p.store x = ⟨p.confine (p.rounding.round (x.scaled p.frac)), p.frac⟩ ∧
      (∀ n, p.rounding.Rounds (x.scaled p.frac) n ↔ n = p.rounding.round (x.scaled p.frac)) ∧
      ∀ n m, p.Confines n m ↔ m = p.confine n := by
  refine ⟨?_, fun n => Rounding.rounds_iff, fun n m => confines_iff⟩
  rw [store_eq_quantize hx hdrop hgrow, quantize, x.toRat_mul_two_zpow]

/-- The signed format of the halves from `-4` to `3.5`, away from zero at ties and with a symmetric
range. -/
def symmetricHalves : Precision where
  width := 4
  integer := 3
  isSigned := true
  rounding := .nearestAway
  overflow := .symmetric
  width_pos := by decide
  width_le := by decide
  frac_ge := by decide
  frac_le := by decide

/-- `-4.25` is in the middle between `-4`, the least of the halves, and `-4.5`, to which it is
rounded; so it is stored as `-3.5`. -/
theorem store_symmetricHalves :
    Mantissa.Fits (-34) ∧ (3 : ℤ) - symmetricHalves.frac ≤ 126 ∧
      symmetricHalves.store ⟨-34, 3⟩ = ⟨-7, 1⟩ ∧ Rounding.nearestAway.Rounds (-17 / 2) (-9) ∧
        ∀ m, symmetricHalves.Confines (-9) m ↔ m = -7 := by
  have hscaled : (Fixed.mk (-34) 3).scaled symmetricHalves.frac = -17 / 2 := by
    norm_num [Fixed.scaled, symmetricHalves, frac]
  have hround : symmetricHalves.rounding.round (-17 / 2) = -9 := by
    norm_num [symmetricHalves, Rounding.round]
  have hconfine : symmetricHalves.confine (-9) = -7 := by decide
  obtain ⟨hstore, hrounds, hconfines⟩ := store_eq_confine_round (p := symmetricHalves)
    (x := ⟨-34, 3⟩) (by decide) (by decide) (by decide)
  rw [hscaled, hround, hconfine] at hstore
  rw [hscaled, hround] at hrounds
  refine ⟨by decide, by decide, hstore, (hrounds (-9)).mpr rfl, fun m => ?_⟩
  rw [hconfines, hconfine]

end Precision

end Depthwise
