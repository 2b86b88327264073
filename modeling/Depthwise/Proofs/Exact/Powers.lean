import Depthwise.Numerics.Product
import Depthwise.Proofs.Exact.Headroom

/-!
# Weights that are powers of two

A weight `2 ^ e` or `-2 ^ e` moves the binary point of a sample and keeps its mantissa, so the
product itself is always exact (`toRat_exponentialProduct`).  What is not always exact is the sum:
the exponent takes the product up to 160 fractional bits away from the point, and a mantissa has no
room to bring it and the sum together there.

* With at most 95 fractional bits more or fewer than the sum, nothing saturates (`sumFits_of_frac`).
* With fewer than that the product saturates.  Both it and the exact one then lie beyond the range
  of the accumulator, on the same side, and only a wrapping accumulator tells them apart
  (`store_add_of_frac_lt`).
* With more than that the **sum** saturates, and what the accumulator held is lost.

`powerRoom_iff` is the exact boundary, and runs within it are exact; `accumulate_tinyPower` is an
accumulator of bytes that forgets its value when the least power of two is added.
-/

namespace Depthwise

/-- The number a signed power of two denotes. -/
def SignedPower.toRat (w : SignedPower) : ℚ :=
  (if w.negative then -1 else 1) * 2 ^ w.exponent.toInt

/-! ### The product -/

namespace Fixed

/-- The product has the mantissa of the sample, or its negative. -/
theorem exponentialProduct_eq {d : Fixed} (h : |d.raw| < 2 ^ 127) (w : SignedPower) :
    exponentialProduct scale d w =
      ⟨if w.negative then -d.raw else d.raw, d.frac - w.exponent.toInt⟩ := by
  have hneg : Mantissa.saturate (-d.raw) = -d.raw :=
    Mantissa.saturate_of_fits (Mantissa.fits_of_abs_lt (by rwa [abs_neg]))
  cases hw : w.negative with
  | false => simp [exponentialProduct, hw, signed, scale]
  | true =>
      simp only [exponentialProduct, hw, signed, Bool.not_true, Bool.false_eq_true, reduceIte]
      show Fixed.mk (Mantissa.saturate (-d.raw)) (d.frac - w.exponent.toInt) = _
      rw [hneg]

theorem abs_raw_exponentialProduct {d : Fixed} (h : |d.raw| < 2 ^ 127) (w : SignedPower) :
    |(exponentialProduct scale d w).raw| = |d.raw| := by
  rw [exponentialProduct_eq h]
  simp only
  split
  · exact abs_neg d.raw
  · rfl

/-- **A product with a power of two is exact.** -/
theorem toRat_exponentialProduct (d : Fixed) (h : |d.raw| < 2 ^ 127) (w : SignedPower) :
    (exponentialProduct scale d w).toRat = d.toRat * w.toRat := by
  have hfrac : -(d.frac - w.exponent.toInt) = -d.frac + w.exponent.toInt := by omega
  rw [exponentialProduct_eq h, toRat, toRat, SignedPower.toRat, hfrac, zpow_add₀ two_ne_zero]
  split <;> push_cast <;> ring

end Fixed

/-! ### Sums that do not saturate -/

/-- Mantissas of 32 bits meet without saturation when they are at most 95 places apart. -/
theorem Fixed.sumFits_of_frac {s q : Fixed} (hs : |s.raw| ≤ 2 ^ 32 - 1) (hq : |q.raw| ≤ 2 ^ 32 - 1)
    (hge : -95 ≤ q.frac - s.frac) (hle : q.frac - s.frac ≤ 95) : SumFits s q := by
  have hge' : s.frac - q.frac ≤ (95 : ℕ) := by omega
  exact sumFits_of_abs_raw_le hs hq hle hge' (by decide) (by decide)

/-- A zero changes no more than the number of fractional bits. -/
theorem Fixed.add_of_raw_zero (x : Fixed) (frac : ℤ) :
    x + ⟨0, frac⟩ = ⟨x.aligned (max x.frac frac), max x.frac frac⟩ := by
  have hzero (n : ℤ) : aligned ⟨0, frac⟩ n = 0 := by
    rw [aligned_eq, lifted, zero_mul, Mantissa.saturate_of_fits (by decide)]
  have hfits : Mantissa.Fits (x.aligned (max x.frac frac)) := Mantissa.fits_saturate _
  show x.add ⟨0, frac⟩ = _
  rw [add, hzero, add_zero, Mantissa.saturate_of_fits hfits]

/-- The greatest mantissa of 32 bits saturates when it is shifted by 96 places or more. -/
theorem Mantissa.shiftLeft_of_le {shift : ℕ} (h : 96 ≤ shift) :
    shiftLeft (2 ^ 32 - 1) shift = greatest := by
  have hpow : (2 : ℤ) ^ 96 ≤ 2 ^ shift := pow_le_pow_right₀ (by decide) h
  rw [shiftLeft_eq]
  unfold saturate least greatest
  omega

/-- A quotient is rounded to its floor or to the integer above it. -/
theorem Rounding.shiftRight_bounds (mode : Rounding) (raw : ℤ) (shift : ℕ) :
    raw / 2 ^ min shift maxShift ≤ mode.shiftRight raw shift ∧
      mode.shiftRight raw shift ≤ raw / 2 ^ min shift maxShift + 1 := by
  unfold shiftRight
  simp only
  split
  · omega
  · split <;> omega

namespace Precision

variable {p data accum : Precision}

/-! ### Sums whose product saturates -/

/-- What wraps keeps the low bits. -/
theorem modEq_of_confine_eq (h : p.overflow = .wrap) {m n : ℤ} (heq : p.confine m = p.confine n) :
    m ≡ n [ZMOD 2 ^ p.width] :=
  (confine_modEq h m).symm.trans (heq ▸ confine_modEq h n)

/-- A term of larger units than the accumulator is brought to its units, saturating. -/
theorem store_add_of_frac_le {s q : Fixed} (hs : p.Stores s) (hq : q.frac ≤ p.frac) :
    p.store (s + q) = ⟨p.confine (Mantissa.saturate (s.raw + q.aligned p.frac)), p.frac⟩ := by
  have hleft : s.aligned p.frac = s.raw := by
    rw [← hs.1, Fixed.aligned_self (Mantissa.fits_of_abs_lt (hs.abs_raw_lt.trans (by decide)))]
  have hsum : s + q = ⟨Mantissa.saturate (s.raw + q.aligned p.frac), p.frac⟩ := by
    show s.add q = _
    rw [Fixed.add, hs.1, max_eq_left hq, hleft]
  have hkeep : Mantissa.shiftLeft (Mantissa.saturate (s.raw + q.aligned p.frac)) 0 =
      Mantissa.saturate (s.raw + q.aligned p.frac) := by
    rw [Mantissa.shiftLeft_eq, pow_zero, mul_one,
      Mantissa.saturate_of_fits (Mantissa.fits_saturate _)]
  rw [hsum, store]
  simp only [sub_self, lt_irrefl, if_false, neg_zero, Int.toNat_zero, hkeep, resolve_eq_confine]

/-- The exact sum of a stored value and a term of larger units. -/
theorem quantize_add_of_frac_le {s q : Fixed} (hs : p.Stores s) (hq : q.frac ≤ p.frac) :
    p.quantize (s.toRat + q.toRat) = ⟨p.confine (s.raw + q.lifted p.frac), p.frac⟩ := by
  have hpow : (2 : ℚ) ^ (-p.frac) * 2 ^ p.frac = 1 := by
    rw [← zpow_add₀ two_ne_zero, neg_add_cancel, zpow_zero]
  have hsum : (s.toRat + q.toRat) * 2 ^ p.frac = ((s.raw + q.lifted p.frac : ℤ) : ℚ) := by
    rw [← Fixed.toRat_lifted hq, Fixed.toRat, hs.1, ← add_mul, mul_assoc, hpow, mul_one]
    push_cast
    rfl
  rw [quantize, hsum, Rounding.round_intCast]

/-- A sum that wraps nowhere is stored as the exact one even where its product saturates: both lie
beyond the range on the same side. -/
theorem store_add_of_frac_lt (hmode : p.overflow ≠ .wrap) {s q : Fixed} (hs : p.Stores s)
    (hq : q.frac + 95 < p.frac) : p.store (s + q) = p.quantize (s.toRat + q.toRat) := by
  rw [store_add_of_frac_le hs (by omega), quantize_add_of_frac_le hs (by omega), Fixed.mk.injEq]
  refine ⟨?_, rfl⟩
  have hrange := abs_lt.mp hs.abs_raw_lt
  obtain ⟨hmin, hmax⟩ := p.range_lt
  have hpow : (2 : ℤ) ^ 96 ≤ 2 ^ (p.frac - q.frac).toNat :=
    pow_le_pow_right₀ (by decide) (by omega)
  rw [Fixed.aligned_eq, Fixed.lifted]
  unfold Mantissa.saturate Mantissa.least Mantissa.greatest
  rcases lt_trichotomy q.raw 0 with hneg | hzero | hpos
  · have hfar : q.raw * 2 ^ (p.frac - q.frac).toNat ≤ -1 * 2 ^ (p.frac - q.frac).toNat :=
      mul_le_mul_of_nonneg_right (Int.le_sub_one_of_lt hneg) (by positivity)
    exact confine_of_lt_minRaw hmode (by omega) (by omega)
  · rw [hzero, zero_mul]
    congr 1
    omega
  · have hfar : 1 * 2 ^ (p.frac - q.frac).toNat ≤ q.raw * 2 ^ (p.frac - q.frac).toNat :=
      mul_le_mul_of_nonneg_right (Int.add_one_le_of_lt hpos) (by positivity)
    exact confine_of_maxRaw_lt hmode (by omega) (by omega)

/-! ### One step -/

/-- The fractional bits a product with `2 ^ e` has more than the sum it is added to. -/
def powerExcess (data accum : Precision) (e : ℤ) : ℤ := data.frac - e - accum.frac

/-- The exponents with which no sum is stored wrongly. -/
def PowerRoom (data accum : Precision) (e : ℤ) : Prop :=
  powerExcess data accum e ≤ 95 ∧ (-95 ≤ powerExcess data accum e ∨ accum.overflow ≠ .wrap)

/-- **A step within the room stores the exact sum.** -/
theorem accumulate_exponentialProduct {d s : Fixed} {w : SignedPower} (hd : data.Stores d)
    (hs : accum.Stores s) (room : PowerRoom data accum w.exponent.toInt) :
    (Accumulator.stored accum).accumulate s (exponentialProduct Fixed.scale d w) =
      accum.quantize (s.toRat + d.toRat * w.toRat) := by
  have hraw : |d.raw| < 2 ^ 127 := hd.abs_raw_lt.trans (by decide)
  have habs := Fixed.abs_raw_exponentialProduct hraw w
  have hfrac : (exponentialProduct Fixed.scale d w).frac = d.frac - w.exponent.toInt := by
    rw [Fixed.exponentialProduct_eq hraw]
  have hsum := Int.le_sub_one_of_lt hs.abs_raw_lt
  have hterm := Int.le_sub_one_of_lt hd.abs_raw_lt
  have hdf := hd.1
  have hsf := hs.1
  obtain ⟨hle, hge⟩ := room
  unfold powerExcess at hle hge
  rw [← Fixed.toRat_exponentialProduct d hraw]
  show accum.store (s + exponentialProduct Fixed.scale d w) = _
  by_cases hnear : -95 ≤ data.frac - w.exponent.toInt - accum.frac
  · exact store_add_of_sumFits hsf (by rw [Rounding.maxShift]; omega)
      (Fixed.sumFits_of_frac hsum (by omega) (by omega) (by omega))
  · exact store_add_of_frac_lt (hge.resolve_left hnear) hs (by omega)

/-! ### Beyond the room -/

theorem holds_widest {n : ℤ} (hnonneg : 0 ≤ n) (hlt : n < 2 ^ 32) : p.widest.Holds n :=
  ⟨by simpa [minRaw, widest] using hnonneg, Int.le_sub_one_of_lt hlt⟩

/-- Brought to many more fractional bits the greatest of sums saturates, and no more than half of
it comes back. -/
theorem accumulate_widest_ne {e : Int8} (h : 95 < powerExcess data accum e.toInt) :
    (Accumulator.stored accum.widest).accumulate ⟨2 ^ 32 - 1, accum.frac⟩
        (exponentialProduct Fixed.scale ⟨0, data.frac⟩ ⟨false, e⟩) ≠
      accum.widest.quantize ((Fixed.mk (2 ^ 32 - 1) accum.frac).toRat +
        (Fixed.mk 0 data.frac).toRat * (SignedPower.mk false e).toRat) := by
  have hzero : (Fixed.mk 0 data.frac).toRat = 0 := by simp [Fixed.toRat]
  rw [hzero, zero_mul, add_zero, quantize_of_stores accum.stores_widest]
  unfold powerExcess at h
  obtain ⟨k, hk⟩ := Int.eq_ofNat_of_zero_le (by omega : 0 ≤ data.frac - e.toInt - accum.frac)
  have hmax : max accum.frac (data.frac - e.toInt) = data.frac - e.toInt := by omega
  have haligned : (Fixed.mk (2 ^ 32 - 1) accum.frac).aligned (data.frac - e.toInt) =
      Mantissa.greatest := Mantissa.shiftLeft_of_le (by simp only; omega)
  have hstore : (Accumulator.stored accum.widest).accumulate ⟨2 ^ 32 - 1, accum.frac⟩
      (exponentialProduct Fixed.scale ⟨0, data.frac⟩ ⟨false, e⟩) =
        ⟨accum.widest.resolve (accum.widest.rounding.shiftRight Mantissa.greatest k),
          accum.widest.frac⟩ := by
    show accum.widest.store (Fixed.mk (2 ^ 32 - 1) accum.frac + ⟨0, data.frac - e.toInt⟩) = _
    rw [Fixed.add_of_raw_zero, hmax, haligned, store, widest_frac, hk, Int.toNat_natCast,
      if_pos (by omega)]
  -- the quotient is at most half of the greatest sum
  obtain ⟨hlow, hhigh⟩ := accum.widest.rounding.shiftRight_bounds Mantissa.greatest k
  have hdivisor : (2 : ℤ) ^ 96 ≤ 2 ^ min k Rounding.maxShift :=
    pow_le_pow_right₀ (by decide) (by rw [Rounding.maxShift]; omega)
  have hnonneg : 0 ≤ Mantissa.greatest / 2 ^ min k Rounding.maxShift :=
    Int.ediv_nonneg (by decide) (by omega)
  have hlt : Mantissa.greatest / 2 ^ min k Rounding.maxShift < 2 ^ 31 :=
    Int.ediv_lt_of_lt_mul (by omega) (by unfold Mantissa.greatest; omega)
  have hholds : accum.widest.Holds (accum.widest.rounding.shiftRight Mantissa.greatest k) :=
    holds_widest (by omega) (by omega)
  rw [hstore, resolve_of_mem hholds]
  intro heq
  have hraw := congrArg Fixed.raw heq
  simp only at hraw
  omega

/-- In units so large that the product saturates, a wrapping accumulator keeps bits which the exact
sum does not have. -/
theorem accumulate_wrap_ne (hmode : accum.overflow = .wrap) {e : Int8}
    (h : powerExcess data accum e.toInt < -95) :
    (Accumulator.stored accum).accumulate ⟨0, accum.frac⟩
        (exponentialProduct Fixed.scale ⟨2 ^ 32 - 1, data.frac⟩ ⟨false, e⟩) ≠
      accum.quantize ((Fixed.mk 0 accum.frac).toRat +
        (Fixed.mk (2 ^ 32 - 1) data.frac).toRat * (SignedPower.mk false e).toRat) := by
  unfold powerExcess at h
  have hlt : (Fixed.mk (2 ^ 32 - 1) (data.frac - e.toInt)).frac < accum.frac := by
    simp only
    omega
  have haligned : (Fixed.mk (2 ^ 32 - 1) (data.frac - e.toInt)).aligned accum.frac =
      Mantissa.greatest := Mantissa.shiftLeft_of_le (by simp only; omega)
  have hproduct : exponentialProduct Fixed.scale ⟨2 ^ 32 - 1, data.frac⟩ ⟨false, e⟩ =
      ⟨2 ^ 32 - 1, data.frac - e.toInt⟩ := rfl
  have hraw : |(2 ^ 32 - 1 : ℤ)| < 2 ^ 127 := by decide
  rw [← Fixed.toRat_exponentialProduct ⟨2 ^ 32 - 1, data.frac⟩ hraw, hproduct,
    quantize_add_of_frac_le accum.stores_zero hlt.le]
  show accum.store (Fixed.mk 0 accum.frac + ⟨2 ^ 32 - 1, data.frac - e.toInt⟩) ≠ _
  rw [store_add_of_frac_le accum.stores_zero hlt.le, haligned]
  intro heq
  -- the saturated mantissa is odd, but the exact one is even
  have hmod := modEq_of_confine_eq hmode (congrArg Fixed.raw heq)
  have hodd : ¬ (2 : ℤ) ∣ Mantissa.saturate (0 + Mantissa.greatest) := by decide
  exact hodd ((two_dvd_iff_of_modEq hmod).mpr (dvd_add (dvd_zero 2) (Fixed.two_dvd_lifted hlt)))

/-! ### Runs -/

/-- A run within the room stores the exact sums. -/
theorem foldl_exponentialProduct {terms : List (Fixed × SignedPower)}
    (h : ∀ t ∈ terms, data.Stores t.1 ∧ PowerRoom data accum t.2.exponent.toInt) {s : Fixed}
    (hs : accum.Stores s) :
    terms.foldl (fun s t =>
        (Accumulator.stored accum).accumulate s (exponentialProduct Fixed.scale t.1 t.2)) s =
      terms.foldl (fun s t => accum.quantize (s.toRat + t.1.toRat * t.2.toRat)) s := by
  induction terms generalizing s with
  | nil => rfl
  | cons t terms ih =>
      obtain ⟨hd, room⟩ := h t List.mem_cons_self
      rw [List.foldl_cons, List.foldl_cons, ← accumulate_exponentialProduct hd hs room]
      exact ih (fun u hu => h u (List.mem_cons_of_mem t hu)) (accum.stores_store _)

/-- **Where powers of two are summed exactly.**  In all formats with these fractional bits and this
overflow mode, every step stores the exact sum exactly when the exponent leaves room, and a run of
such steps stores the exact sums, however long it is. -/
theorem powerRoom_iff (data accum : Precision) :
    (∀ e : Int8, (∀ data' accum' : Precision, data'.frac = data.frac → accum'.frac = accum.frac →
        accum'.overflow = accum.overflow → ∀ d s w, data'.Stores d → accum'.Stores s →
          w.exponent = e →
          (Accumulator.stored accum').accumulate s (exponentialProduct Fixed.scale d w) =
            accum'.quantize (s.toRat + d.toRat * w.toRat)) ↔
      PowerRoom data accum e.toInt) ∧
      ∀ terms : List (Fixed × SignedPower),
        (∀ t ∈ terms, data.Stores t.1 ∧ PowerRoom data accum t.2.exponent.toInt) →
        ∀ s, accum.Stores s →
          terms.foldl (fun s t =>
              (Accumulator.stored accum).accumulate s (exponentialProduct Fixed.scale t.1 t.2)) s =
            terms.foldl (fun s t => accum.quantize (s.toRat + t.1.toRat * t.2.toRat)) s := by
  refine ⟨fun e => ⟨fun hall => ⟨?_, ?_⟩, ?_⟩, fun terms h s hs => foldl_exponentialProduct h hs⟩
  · by_contra hlt
    exact accumulate_widest_ne (not_le.mp hlt)
      (hall data accum.widest rfl accum.widest_frac rfl _ _ ⟨false, e⟩ data.stores_zero
        accum.stores_widest rfl)
  · by_contra hlt
    obtain ⟨hlt, hmode⟩ := not_or.mp hlt
    exact accumulate_wrap_ne (not_not.mp hmode) (not_le.mp hlt)
      (hall data.widest accum data.widest_frac rfl rfl _ _ ⟨false, e⟩ data.stores_widest
        accum.stores_zero rfl)
  · rintro room data' accum' hdf haf hmode d s w hd hs rfl
    have room' : PowerRoom data' accum' w.exponent.toInt := by
      unfold PowerRoom powerExcess
      rw [hdf, haf, hmode]
      exact room
    exact accumulate_exponentialProduct hd hs room'

/-! ### The least power -/

/-- The signed format of bytes. -/
def bytes : Precision where
  width := 8
  integer := 8
  isSigned := true
  rounding := .down
  overflow := .wrap
  width_pos := by decide
  width_le := by decide
  frac_ge := by decide
  frac_le := by decide

/-- The byte 2, to which `2 ^ (-128)` is added, would stay as it is; but it saturates at the
fractional bits of the product, and 1 is left. -/
theorem accumulate_tinyPower :
    bytes.Stores ⟨1, 0⟩ ∧ bytes.Stores ⟨2, 0⟩ ∧
      bytes.quantize ((Fixed.mk 2 0).toRat +
        (Fixed.mk 1 0).toRat * (SignedPower.mk false (-128)).toRat) = ⟨2, 0⟩ ∧
      (Accumulator.stored bytes).accumulate ⟨2, 0⟩
        (exponentialProduct Fixed.scale ⟨1, 0⟩ ⟨false, -128⟩) = ⟨1, 0⟩ := by
  have hexp : (-128 : Int8).toInt = -128 := by decide
  have hround : bytes.rounding.round (((Fixed.mk 2 0).toRat +
      (Fixed.mk 1 0).toRat * (SignedPower.mk false (-128)).toRat) * 2 ^ bytes.frac) = 2 := by
    norm_num [Fixed.toRat, SignedPower.toRat, hexp, bytes, frac, Rounding.round]
  refine ⟨by decide, by decide, ?_, by decide⟩
  rw [quantize, hround]
  decide

end Precision

end Depthwise
