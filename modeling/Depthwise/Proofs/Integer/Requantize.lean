import Depthwise.Numerics.Cast
import Mathlib.Data.Rat.Floor
import Mathlib.Tactic.NormNum

/-!
# Requantization

The formula of a requantization is the floor of `acc * multiplier / 2 ^ shift`, clamped to eight
bits (`Requant.formula`).  The cast computes it with a product that stops at the bounds of 64 bits
and with a shift by no more than 63 places.

* Of a product of 64 bits a shift by 63 places or more leaves only the sign, so the bound on the
  shift changes nothing (`ediv_two_pow_min`).
* A product that stops keeps its sign, and enough of its size to be clamped as the exact one is
  after a shift by at most 56 places.  After a longer one the lost size is seen, unless the shift
  leaves only the sign of the exact product too.

`apply_eq_formula_iff` is this boundary, and `apply_doubledPower` a product just beyond it.  The
products of 32-bit sums lie within it.
-/

namespace Depthwise

/-! ### Shifts -/

theorem floor_div_two_pow (n : ℤ) (s : ℕ) : ⌊(n : ℚ) / 2 ^ s⌋ = n / 2 ^ s := by
  exact_mod_cast Rat.floor_intCast_div_natCast n (2 ^ s)

/-- Of a number of `k` bits and a sign, a shift by `k` places or more leaves the sign. -/
theorem ediv_two_pow_of_le {n : ℤ} {k s : ℕ} (hlo : -2 ^ k ≤ n) (hhi : n < 2 ^ k) (h : k ≤ s) :
    n / 2 ^ s = if n < 0 then -1 else 0 := by
  have hpow : (2 : ℤ) ^ k ≤ 2 ^ s := pow_le_pow_right₀ (by decide) h
  split
  · next hneg => exact Int.ediv_eq_neg_one_of_neg_of_le hneg (by omega)
  · next hnonneg => exact Int.ediv_eq_zero_of_lt (by omega) (by omega)

theorem ediv_two_pow_min {n : ℤ} {k : ℕ} (hlo : -2 ^ k ≤ n) (hhi : n < 2 ^ k) (s : ℕ) :
    n / 2 ^ min s k = n / 2 ^ s := by
  rcases le_total s k with h | h
  · rw [min_eq_left h]
  · rw [min_eq_right h, ediv_two_pow_of_le hlo hhi le_rfl, ediv_two_pow_of_le hlo hhi h]

namespace Requant

/-! ### Clamping -/

theorem clamp_of_le {n : ℤ} (lo hi : ℤ) (hn : n ≤ lo) : clamp lo hi n = lo := by
  unfold clamp
  omega

theorem clamp_of_ge {n : ℤ} (lo hi : ℤ) (h : lo ≤ hi) (hn : hi ≤ n) : clamp lo hi n = hi := by
  unfold clamp
  omega

theorem clamp_of_mem {n : ℤ} (lo hi : ℤ) (hlo : lo ≤ n) (hhi : n ≤ hi) : clamp lo hi n = n := by
  unfold clamp
  omega

theorem clamp_bounds {lo hi : ℤ} (n : ℤ) (h : lo ≤ hi) :
    lo ≤ clamp lo hi n ∧ clamp lo hi n ≤ hi := by
  unfold clamp
  omega

/-! ### The formula -/

variable {q : Requant} {acc : ℤ}

/-- The eight-bit value by the formula. -/
def formula (q : Requant) (acc : ℤ) : ℤ :=
  clamp (-128) 127 ⌊(acc * q.multiplier.toInt : ℚ) / 2 ^ q.shift⌋

theorem formula_eq (q : Requant) (acc : ℤ) :
    q.formula acc = clamp (-128) 127 (acc * q.multiplier.toInt / 2 ^ q.shift) := by
  rw [formula, ← Int.cast_mul, floor_div_two_pow]

/-- An eight-bit value is kept by its type. -/
theorem toInt_apply (q : Requant) (acc : ℤ) : (q.apply acc).toInt = q.rescale acc := by
  have hbounds : -128 ≤ q.rescale acc ∧ q.rescale acc ≤ 127 := clamp_bounds _ (by decide)
  exact Int8.toInt_ofInt_of_le hbounds.1 (Int.lt_add_one_iff.mpr hbounds.2)

/-! ### Within the room -/

/-- Where neither the bounds on the product nor the one on the shift are seen. -/
def Room (q : Requant) (acc : ℤ) : Prop :=
  q.shift ≤ 56 ∨
    (-2 ^ max q.shift 63 ≤ acc * q.multiplier.toInt ∧
      acc * q.multiplier.toInt < 2 ^ max q.shift 63)

theorem le_ediv_of_short {n : ℤ} {s : ℕ} (hs : s ≤ 56) (hn : 2 ^ 63 - 1 ≤ n) : 127 ≤ n / 2 ^ s := by
  have hpow : (2 : ℤ) ^ s ≤ 2 ^ 56 := pow_le_pow_right₀ (by decide) hs
  exact Int.le_ediv_of_mul_le (by positivity) (by omega)

theorem ediv_le_of_short {n : ℤ} {s : ℕ} (hs : s ≤ 56) (hn : n ≤ -2 ^ 63) : n / 2 ^ s ≤ -128 := by
  have hpow : (2 : ℤ) ^ s ≤ 2 ^ 56 := pow_le_pow_right₀ (by decide) hs
  exact Int.ediv_le_of_le_mul (by positivity) (by omega)

theorem rescale_of_product (hlo : -2 ^ 63 ≤ acc * q.multiplier.toInt)
    (hhi : acc * q.multiplier.toInt < 2 ^ 63) : q.rescale acc = q.formula acc := by
  rw [formula_eq, ← ediv_two_pow_min hlo hhi, rescale,
    clamp_of_mem (-2 ^ 63) (2 ^ 63 - 1) hlo (Int.le_sub_one_of_lt hhi)]

/-- After a short shift a product that stops is clamped as the exact one is. -/
theorem rescale_of_short (hs : q.shift ≤ 56) : q.rescale acc = q.formula acc := by
  rcases lt_or_ge (acc * q.multiplier.toInt) (-2 ^ 63) with hlt | hlo
  · rw [formula_eq, rescale, clamp_of_le (-2 ^ 63) (2 ^ 63 - 1) hlt.le,
      min_eq_left (by omega), clamp_of_le (-128) 127 (ediv_le_of_short hs le_rfl),
      clamp_of_le (-128) 127 (ediv_le_of_short hs hlt.le)]
  · rcases lt_or_ge (acc * q.multiplier.toInt) (2 ^ 63) with hhi | hge
    · exact rescale_of_product hlo hhi
    · have hge' : 2 ^ 63 - 1 ≤ acc * q.multiplier.toInt := by omega
      rw [formula_eq, rescale, clamp_of_ge (-2 ^ 63) (2 ^ 63 - 1) (by decide) hge',
        min_eq_left (by omega), clamp_of_ge (-128) 127 (by decide) (le_ediv_of_short hs le_rfl),
        clamp_of_ge (-128) 127 (by decide) (le_ediv_of_short hs hge')]

/-- After a long shift only the sign is left of a product, which stopping keeps. -/
theorem rescale_of_long (hs : 63 ≤ q.shift) (hlo : -2 ^ q.shift ≤ acc * q.multiplier.toInt)
    (hhi : acc * q.multiplier.toInt < 2 ^ q.shift) : q.rescale acc = q.formula acc := by
  obtain ⟨hlo', hhi'⟩ : -2 ^ 63 ≤ clamp (-2 ^ 63) (2 ^ 63 - 1) (acc * q.multiplier.toInt) ∧ _ :=
    clamp_bounds _ (by decide)
  rw [formula_eq, rescale, min_eq_right hs, ediv_two_pow_of_le hlo hhi le_rfl,
    ediv_two_pow_of_le hlo' (Int.lt_of_le_sub_one hhi') le_rfl]
  congr 1
  unfold clamp
  split_ifs <;> omega

theorem rescale_of_room (h : q.Room acc) : q.rescale acc = q.formula acc := by
  rcases h with hs | ⟨hlo, hhi⟩
  · exact rescale_of_short hs
  · rcases le_total q.shift 63 with hs | hs
    · rw [max_eq_right hs] at hlo hhi
      exact rescale_of_product hlo hhi
    · rw [max_eq_left hs] at hlo hhi
      exact rescale_of_long hs hlo hhi

/-! ### Beyond the room -/

/-- A product that stops is short of the exact one by a power of two after the shift, and the shift
is long enough for it not to be clamped. -/
theorem rescale_ne_of_not_room (h : ¬ q.Room acc) : q.rescale acc ≠ q.formula acc := by
  obtain ⟨hlong, hout⟩ := not_or.mp h
  obtain ⟨j, hj⟩ := Nat.exists_eq_add_of_le' (min_le_right q.shift 63)
  have hj₆ : (2 : ℤ) ^ j ≤ 2 ^ 6 := pow_le_pow_right₀ (by decide) (by omega)
  have hj₀ : (0 : ℤ) < 2 ^ j := by positivity
  have hstop : (2 : ℤ) ^ 63 = 2 ^ j * 2 ^ min q.shift 63 := by rw [← pow_add, ← hj]
  have hexact : (2 : ℤ) ^ max q.shift 63 = 2 ^ j * 2 ^ q.shift := by
    rw [← pow_add]
    congr 1
    omega
  have hmax : (2 : ℤ) ^ 63 ≤ 2 ^ max q.shift 63 := pow_le_pow_right₀ (by decide) (le_max_right _ _)
  rw [formula_eq, rescale]
  by_cases hlo : -2 ^ max q.shift 63 ≤ acc * q.multiplier.toInt
  · have hhi : 2 ^ max q.shift 63 ≤ acc * q.multiplier.toInt :=
      not_lt.mp fun hhi => hout ⟨hlo, hhi⟩
    have hlt : (2 ^ 63 - 1 : ℤ) / 2 ^ min q.shift 63 < 2 ^ j :=
      Int.ediv_lt_of_lt_mul (by positivity) (by omega)
    have hle : 2 ^ j ≤ acc * q.multiplier.toInt / 2 ^ q.shift :=
      Int.le_ediv_of_mul_le (by positivity) (hexact ▸ hhi)
    rw [clamp_of_ge (-2 ^ 63) (2 ^ 63 - 1) (by decide) (by omega)]
    unfold clamp
    omega
  · have hle : -2 ^ j ≤ (-2 ^ 63 : ℤ) / 2 ^ min q.shift 63 :=
      Int.le_ediv_of_mul_le (by positivity) (by rw [neg_mul, ← hstop])
    have hlt : acc * q.multiplier.toInt / 2 ^ q.shift < -2 ^ j :=
      Int.ediv_lt_of_lt_mul (by positivity) (by rw [neg_mul, ← hexact]; omega)
    rw [clamp_of_le (-2 ^ 63) (2 ^ 63 - 1) (by omega)]
    unfold clamp
    omega

theorem rescale_eq_formula_iff : q.rescale acc = q.formula acc ↔ q.Room acc :=
  ⟨fun h => not_not.mp fun hroom => rescale_ne_of_not_room hroom h, rescale_of_room⟩

/-- The product of two numbers of 32 bits is one of 64, far from the bounds. -/
theorem room_int32 (q : Requant) (a : Int32) : q.Room a.toInt := by
  have habs : |a.toInt * q.multiplier.toInt| ≤ 2 ^ 31 * 2 ^ 31 := by
    rw [abs_mul]
    exact mul_le_mul (abs_le.mpr ⟨a.le_toInt, a.toInt_lt.le⟩)
      (abs_le.mpr ⟨q.multiplier.le_toInt, q.multiplier.toInt_lt.le⟩) (abs_nonneg _) (by decide)
  have hmax : (2 : ℤ) ^ 63 ≤ 2 ^ max q.shift 63 := pow_le_pow_right₀ (by decide) (le_max_right _ _)
  obtain ⟨hlo, hhi⟩ := abs_le.mp habs
  exact .inr ⟨by omega, by omega⟩

/-- **Where requantization computes its formula.**  For sums of 32 bits always; for sums of 64 bits
exactly when the shift is by at most 56 places, or the product is one of 64 bits, or one that the
shift leaves only the sign of. -/
theorem apply_eq_formula_iff (q : Requant) :
    (∀ a : Int32, (q.apply a.toInt).toInt = q.formula a.toInt) ∧
      ∀ a : Int64, (q.apply a.toInt).toInt = q.formula a.toInt ↔
        q.shift ≤ 56 ∨
          (-2 ^ max q.shift 63 ≤ a.toInt * q.multiplier.toInt ∧
            a.toInt * q.multiplier.toInt < 2 ^ max q.shift 63) := by
  refine ⟨fun a => ?_, fun a => ?_⟩
  · rw [toInt_apply, rescale_of_room (q.room_int32 a)]
  · rw [toInt_apply, rescale_eq_formula_iff]
    exact Iff.rfl

/-- Twice `2 ^ 62`, shifted by 57 places, is 64; but the product stops at `2 ^ 63 - 1`, of which 63
is left. -/
theorem apply_doubledPower :
    (⟨2, 57⟩ : Requant).formula (4611686018427387904 : Int64).toInt = 64 ∧
      ((⟨2, 57⟩ : Requant).apply (4611686018427387904 : Int64).toInt).toInt = 63 := by
  refine ⟨?_, by decide⟩
  rw [formula_eq]
  decide

end Requant

end Depthwise
