import Depthwise.Fixed.Rounding
import Mathlib.Algebra.Ring.Int.Parity
import Mathlib.Data.Rat.Floor
import Mathlib.Tactic.FieldSimp
import Mathlib.Tactic.Linarith
import Mathlib.Tactic.NormNum

/-!
# Rounding of exact numbers

A rounding mode takes every rational number to an integer (`Rounding.round`), by floors and ceilings
of the number and of its neighbours at one half.  Dropping the low bits of an integer is this
rounding of the quotient (`shiftRight_eq_round`), as long as no more than `maxShift` bits are
dropped.

What the formulas mean is said by `Rounding.Rounds` without them: the greatest integer below, the
longest one toward zero, or one of the nearest integers, chosen by size, length or parity when there
are two.  The nearest integers of `y` are those from `⌈y - 1 / 2⌉` to `⌊y + 1 / 2⌋` (`nearest_iff`).
-/

namespace Depthwise

/-! ### Nearest integers -/

/-- No integer is nearer to `y` than `n`. -/
def Nearest (y : ℚ) (n : ℤ) : Prop := ∀ m : ℤ, |y - n| ≤ |y - m|

theorem nearest_of_abs_le {y : ℚ} {n : ℤ} (h : |y - n| ≤ 1 / 2) : Nearest y n := by
  intro m
  rcases eq_or_ne n m with rfl | hne
  · exact le_refl _
  · have hdist : (1 : ℚ) ≤ |(n : ℚ) - m| := by
      exact_mod_cast Int.one_le_abs (sub_ne_zero.mpr hne)
    have htri := abs_sub_le (n : ℚ) y m
    rw [abs_sub_comm (n : ℚ) y] at htri
    linarith

theorem nearest_iff {y : ℚ} {n : ℤ} : Nearest y n ↔ ⌈y - 1 / 2⌉ ≤ n ∧ n ≤ ⌊y + 1 / 2⌋ := by
  have habs : |y - n| ≤ 1 / 2 ↔ ⌈y - 1 / 2⌉ ≤ n ∧ n ≤ ⌊y + 1 / 2⌋ := by
    rw [abs_le, Int.ceil_le, Int.le_floor]
    constructor <;> rintro ⟨h₁, h₂⟩ <;> constructor <;> linarith
  refine ⟨fun h => habs.mp ?_, fun h => nearest_of_abs_le (habs.mpr h)⟩
  have hfloor := h ⌊y + 1 / 2⌋
  have hle := Int.floor_le (y + 1 / 2)
  have hlt := Int.lt_floor_add_one (y + 1 / 2)
  refine hfloor.trans (abs_le.mpr ⟨by linarith, by linarith⟩)

/-- The integers nearest to `y` are one, or two that follow each other. -/
theorem ceil_sub_half_le (y : ℚ) :
    ⌈y - 1 / 2⌉ ≤ ⌊y + 1 / 2⌋ ∧ ⌊y + 1 / 2⌋ ≤ ⌈y - 1 / 2⌉ + 1 := by
  have hceil := Int.le_ceil (y - 1 / 2)
  have hceil' := Int.ceil_lt_add_one (y - 1 / 2)
  have hfloor := Int.floor_le (y + 1 / 2)
  have hfloor' := Int.lt_floor_add_one (y + 1 / 2)
  constructor
  · have hlt : (⌈y - 1 / 2⌉ : ℚ) < ⌊y + 1 / 2⌋ + 1 := by linarith
    exact Int.lt_add_one_iff.mp (by exact_mod_cast hlt)
  · have hle : (⌊y + 1 / 2⌋ : ℚ) ≤ ⌈y - 1 / 2⌉ + 1 := by linarith
    exact_mod_cast hle

theorem nearest_ceil (y : ℚ) : Nearest y ⌈y - 1 / 2⌉ :=
  nearest_iff.mpr ⟨le_refl _, (ceil_sub_half_le y).1⟩

theorem nearest_floor (y : ℚ) : Nearest y ⌊y + 1 / 2⌋ :=
  nearest_iff.mpr ⟨(ceil_sub_half_le y).1, le_refl _⟩

/-- The nearest integers are on the same side of zero. -/
theorem Nearest.nonpos {y : ℚ} {n : ℤ} (h : Nearest y n) (hy : y < 0) : n ≤ 0 := by
  have hlt : ⌊y + 1 / 2⌋ < 1 := Int.floor_lt.mpr (by push_cast; linarith)
  exact (nearest_iff.mp h).2.trans (Int.lt_add_one_iff.mp hlt)

theorem Nearest.nonneg {y : ℚ} {n : ℤ} (h : Nearest y n) (hy : 0 ≤ y) : 0 ≤ n := by
  have hlt : -1 < ⌈y - 1 / 2⌉ := Int.lt_ceil.mpr (by push_cast; linarith)
  exact (Int.add_one_le_iff.mpr hlt).trans (nearest_iff.mp h).1

theorem Nearest.eq_of_abs {y : ℚ} {m n : ℤ} (hm : Nearest y m) (hn : Nearest y n)
    (h : |m| = |n|) : m = n := by
  rcases lt_or_ge y 0 with hy | hy
  · rw [abs_of_nonpos (hm.nonpos hy), abs_of_nonpos (hn.nonpos hy)] at h
    exact neg_injective h
  · rwa [abs_of_nonneg (hm.nonneg hy), abs_of_nonneg (hn.nonneg hy)] at h

namespace Rounding

/-! ### The modes -/

/-- The integer a number is rounded to. -/
def round (mode : Rounding) (y : ℚ) : ℤ :=
  match mode with
  | down => ⌊y⌋
  | towardZero => if y < 0 then ⌈y⌉ else ⌊y⌋
  | nearestUp => ⌊y + 1 / 2⌋
  | nearestTowardZero => if y < 0 then ⌊y + 1 / 2⌋ else ⌈y - 1 / 2⌉
  | nearestAway => if y < 0 then ⌈y - 1 / 2⌉ else ⌊y + 1 / 2⌋
  | nearestDown => ⌈y - 1 / 2⌉
  | nearestEven => if Even ⌊y + 1 / 2⌋ then ⌊y + 1 / 2⌋ else ⌈y - 1 / 2⌉

/-- `n` is the integer a mode rounds `y` to: one below or towards zero that no other such integer
exceeds, or of the nearest ones the one its rule for ties prefers. -/
def Rounds (mode : Rounding) (y : ℚ) (n : ℤ) : Prop :=
  match mode with
  | down => (n : ℚ) ≤ y ∧ ∀ m : ℤ, (m : ℚ) ≤ y → m ≤ n
  | towardZero => 0 ≤ y * n ∧ |(n : ℚ)| ≤ |y| ∧ ∀ m : ℤ, |(m : ℚ)| ≤ |y| → |m| ≤ |n|
  | nearestUp => Nearest y n ∧ ∀ m, Nearest y m → m ≤ n
  | nearestTowardZero => Nearest y n ∧ ∀ m, Nearest y m → |n| ≤ |m|
  | nearestAway => Nearest y n ∧ ∀ m, Nearest y m → |m| ≤ |n|
  | nearestDown => Nearest y n ∧ ∀ m, Nearest y m → n ≤ m
  | nearestEven => Nearest y n ∧ ∀ m, Nearest y m → m = n ∨ Even n

theorem round_intCast (mode : Rounding) (n : ℤ) : mode.round n = n := by
  have hfloor : ⌊(n : ℚ) + 1 / 2⌋ = n := Int.floor_eq_iff.mpr ⟨by linarith, by linarith⟩
  have hceil : ⌈(n : ℚ) - 1 / 2⌉ = n := Int.ceil_eq_iff.mpr ⟨by linarith, by linarith⟩
  cases mode <;> simp only [round, hfloor, hceil, Int.floor_intCast, Int.ceil_intCast, ite_self]

/-- A number is rounded to one of its two neighbouring integers. -/
theorem round_bounds (mode : Rounding) (y : ℚ) : ⌊y⌋ ≤ mode.round y ∧ mode.round y ≤ ⌈y⌉ := by
  have hle := Int.floor_le_ceil y
  have hhalf := (ceil_sub_half_le y).1
  have hceil : ⌊y⌋ - 1 < ⌈y - 1 / 2⌉ := by
    have hy := Int.floor_le y
    exact Int.lt_ceil.mpr (by push_cast; linarith)
  have hfloor : ⌊y + 1 / 2⌋ < ⌈y⌉ + 1 := by
    have hy := Int.le_ceil y
    exact Int.floor_lt.mpr (by push_cast; linarith)
  cases mode <;> simp only [round] <;> (repeat' split) <;> omega

/-- What is nearer to zero than one half is rounded by its sign alone. -/
theorem round_of_abs_lt_half (mode : Rounding) {y : ℚ} (h : |y| < 1 / 2) :
    mode.round y = if mode = down ∧ y < 0 then -1 else 0 := by
  obtain ⟨hlo, hhi⟩ := abs_lt.mp h
  have hfloor : ⌊y + 1 / 2⌋ = 0 := Int.floor_eq_zero_iff.mpr ⟨by linarith, by linarith⟩
  have hceil : ⌈y - 1 / 2⌉ = 0 := Int.ceil_eq_zero_iff.mpr ⟨by linarith, by linarith⟩
  rcases lt_or_ge y 0 with hy | hy
  · have hdown : ⌊y⌋ = -1 := Int.floor_eq_iff.mpr ⟨by push_cast; linarith, by push_cast; linarith⟩
    have hup : ⌈y⌉ = 0 := Int.ceil_eq_zero_iff.mpr ⟨by linarith, by linarith⟩
    cases mode <;> simp only [round, hfloor, hceil, hdown, hup, hy, reduceCtorEq, and_true,
      if_true, if_false, ite_self]
  · have hdown : ⌊y⌋ = 0 := Int.floor_eq_zero_iff.mpr ⟨hy, by linarith⟩
    cases mode <;> simp only [round, hfloor, hceil, hdown, not_lt.mpr hy, and_false, if_false,
      ite_self]

/-! ### What the formulas mean -/

private theorem rounds_towardZero (y : ℚ) : towardZero.Rounds y (towardZero.round y) := by
  rcases lt_or_ge y 0 with hy | hy
  · simp only [Rounds, round, if_pos hy]
    have hceil : ⌈y⌉ ≤ 0 := Int.ceil_le.mpr (by push_cast; exact hy.le)
    have hceil' : (⌈y⌉ : ℚ) ≤ 0 := by exact_mod_cast hceil
    refine ⟨mul_nonneg_of_nonpos_of_nonpos hy.le hceil', ?_, ?_⟩
    · rw [abs_of_nonpos hceil', abs_of_neg hy]
      exact neg_le_neg (Int.le_ceil y)
    · intro m hm
      rw [abs_of_neg hy] at hm
      rw [abs_of_nonpos hceil, le_neg, Int.ceil_le]
      push_cast
      exact le_neg.mp hm
  · simp only [Rounds, round, if_neg (not_lt.mpr hy)]
    have hfloor : 0 ≤ ⌊y⌋ := Int.floor_nonneg.mpr hy
    have hfloor' : (0 : ℚ) ≤ ⌊y⌋ := by exact_mod_cast hfloor
    refine ⟨mul_nonneg hy hfloor', ?_, ?_⟩
    · rw [abs_of_nonneg hfloor', abs_of_nonneg hy]
      exact Int.floor_le y
    · intro m hm
      rw [abs_of_nonneg hy] at hm
      rw [abs_of_nonneg hfloor, Int.le_floor]
      push_cast
      exact hm

private theorem rounds_nearestTowardZero (y : ℚ) :
    nearestTowardZero.Rounds y (nearestTowardZero.round y) := by
  have hlow := nearest_ceil y
  have hhigh := nearest_floor y
  rcases lt_or_ge y 0 with hy | hy
  · simp only [Rounds, round, if_pos hy]
    refine ⟨hhigh, ?_⟩
    intro m hm
    exact abs_le_abs_of_nonpos (hhigh.nonpos hy) (nearest_iff.mp hm).2
  · simp only [Rounds, round, if_neg (not_lt.mpr hy)]
    refine ⟨hlow, ?_⟩
    intro m hm
    exact abs_le_abs_of_nonneg (hlow.nonneg hy) (nearest_iff.mp hm).1

private theorem rounds_nearestAway (y : ℚ) : nearestAway.Rounds y (nearestAway.round y) := by
  have hlow := nearest_ceil y
  have hhigh := nearest_floor y
  rcases lt_or_ge y 0 with hy | hy
  · simp only [Rounds, round, if_pos hy]
    refine ⟨hlow, ?_⟩
    intro m hm
    exact abs_le_abs_of_nonpos (hm.nonpos hy) (nearest_iff.mp hm).1
  · simp only [Rounds, round, if_neg (not_lt.mpr hy)]
    refine ⟨hhigh, ?_⟩
    intro m hm
    exact abs_le_abs_of_nonneg (hm.nonneg hy) (nearest_iff.mp hm).2

/-- Of two nearest integers, which follow each other, one is even. -/
private theorem rounds_nearestEven (y : ℚ) : nearestEven.Rounds y (nearestEven.round y) := by
  by_cases heven : Even ⌊y + 1 / 2⌋
  · simp only [Rounds, round, if_pos heven]
    exact ⟨nearest_floor y, fun m hm => .inr heven⟩
  · simp only [Rounds, round, if_neg heven]
    refine ⟨nearest_ceil y, ?_⟩
    intro m hm
    have hm' := nearest_iff.mp hm
    have hle := (ceil_sub_half_le y).2
    rw [Int.even_iff] at heven ⊢
    omega

/-- A mode rounds a number to the integer its rule names. -/
theorem rounds_round (mode : Rounding) (y : ℚ) : mode.Rounds y (mode.round y) := by
  cases mode with
  | down => exact ⟨Int.floor_le y, fun m hm => Int.le_floor.mpr hm⟩
  | towardZero => exact rounds_towardZero y
  | nearestUp => exact ⟨nearest_floor y, fun m hm => (nearest_iff.mp hm).2⟩
  | nearestTowardZero => exact rounds_nearestTowardZero y
  | nearestAway => exact rounds_nearestAway y
  | nearestDown => exact ⟨nearest_ceil y, fun m hm => (nearest_iff.mp hm).1⟩
  | nearestEven => exact rounds_nearestEven y

/-- No mode leaves a choice. -/
theorem Rounds.unique {mode : Rounding} {y : ℚ} {m n : ℤ} (hm : mode.Rounds y m)
    (hn : mode.Rounds y n) : m = n := by
  cases mode with
  | down => exact le_antisymm (hn.2 m hm.1) (hm.2 n hn.1)
  | towardZero =>
    obtain ⟨hm₀, hmle, hmax⟩ := hm
    obtain ⟨hn₀, hnle, hnax⟩ := hn
    have habs : |m| = |n| := le_antisymm (hnax m hmle) (hmax n hnle)
    rcases abs_eq_abs.mp habs with h | rfl
    · exact h
    · -- only zero has the sign of `y` and its negation as well
      have hzero : y * n = 0 := by
        push_cast at hm₀
        linarith
      have hn : n = 0 := by
        rcases mul_eq_zero.mp hzero with hy | hn
        · rw [hy, abs_zero] at hnle
          exact_mod_cast abs_nonpos_iff.mp hnle
        · exact_mod_cast hn
      rw [hn, neg_zero]
  | nearestUp => exact le_antisymm (hn.2 m hm.1) (hm.2 n hn.1)
  | nearestDown => exact le_antisymm (hm.2 n hn.1) (hn.2 m hm.1)
  | nearestTowardZero => exact hm.1.eq_of_abs hn.1 (le_antisymm (hm.2 n hn.1) (hn.2 m hm.1))
  | nearestAway => exact hm.1.eq_of_abs hn.1 (le_antisymm (hn.2 m hm.1) (hm.2 n hn.1))
  | nearestEven =>
    obtain ⟨hm, hmeven⟩ := hm
    obtain ⟨hn, hneven⟩ := hn
    rcases hmeven n hn with h | hm₂
    · exact h.symm
    · rcases hneven m hm with h | hn₂
      · exact h
      · have hm' := nearest_iff.mp hm
        have hn' := nearest_iff.mp hn
        have hle := ceil_sub_half_le y
        rw [Int.even_iff] at hm₂ hn₂
        omega

theorem rounds_iff {mode : Rounding} {y : ℚ} {n : ℤ} :
    mode.Rounds y n ↔ n = mode.round y :=
  ⟨fun h => h.unique (mode.rounds_round y), fun h => h ▸ mode.rounds_round y⟩

/-! ### Quotients

The quotient of `2 * h * f + r` by `2 * h` has the floor `f` and the remainder `r`.
-/

section Quotient

variable {f r h : ℤ}

private theorem quotient_lt_zero (hh : 0 < h) :
    (f + r / (2 * h) : ℚ) < 0 ↔ 2 * h * f + r < 0 := by
  have hpos : (0 : ℚ) < 2 * h := by exact_mod_cast (by omega : 0 < 2 * h)
  rw [add_div' _ _ _ hpos.ne', div_lt_iff₀ hpos, zero_mul, mul_comm (f : ℚ)]
  exact_mod_cast Iff.rfl

private theorem floor_quotient (hr : 0 ≤ r) (hlt : r < 2 * h) : ⌊(f + r / (2 * h) : ℚ)⌋ = f := by
  have hpos : (0 : ℚ) < 2 * h := by exact_mod_cast hr.trans_lt hlt
  have h₀ : (0 : ℚ) ≤ r / (2 * h) := div_nonneg (by exact_mod_cast hr) hpos.le
  have h₁ : (r : ℚ) / (2 * h) < 1 := (div_lt_one hpos).mpr (by exact_mod_cast hlt)
  exact Int.floor_eq_iff.mpr ⟨by linarith, by linarith⟩

private theorem ceil_quotient (hr : 0 < r) (hle : r ≤ 2 * h) :
    ⌈(f + r / (2 * h) : ℚ)⌉ = f + 1 := by
  have hpos : (0 : ℚ) < 2 * h := by exact_mod_cast hr.trans_le hle
  have h₀ : (0 : ℚ) < r / (2 * h) := div_pos (by exact_mod_cast hr) hpos
  have h₁ : (r : ℚ) / (2 * h) ≤ 1 := (div_le_one hpos).mpr (by exact_mod_cast hle)
  exact Int.ceil_eq_iff.mpr ⟨by push_cast; linarith, by push_cast; linarith⟩

/-- Shifted up by one half, the quotient has the remainder `r + h`, or `r - h` over the next
integer. -/
private theorem floor_quotient_add_half (hr : 0 ≤ r) (hlt : r < 2 * h) :
    ⌊(f + r / (2 * h) : ℚ) + 1 / 2⌋ = if h ≤ r then f + 1 else f := by
  have hpos : (h : ℚ) ≠ 0 := by exact_mod_cast (by omega : h ≠ 0)
  split
  · next hle =>
    have heq : (f + r / (2 * h) : ℚ) + 1 / 2 = (f + 1 : ℤ) + (r - h : ℤ) / (2 * h) := by
      push_cast; field_simp; ring
    rw [heq, floor_quotient (by omega) (by omega)]
  · next hle =>
    have heq : (f + r / (2 * h) : ℚ) + 1 / 2 = f + (r + h : ℤ) / (2 * h) := by
      push_cast; field_simp; ring
    rw [heq, floor_quotient (by omega) (by omega)]

private theorem ceil_quotient_sub_half (hr : 0 ≤ r) (hlt : r < 2 * h) :
    ⌈(f + r / (2 * h) : ℚ) - 1 / 2⌉ = if h < r then f + 1 else f := by
  have hpos : (h : ℚ) ≠ 0 := by exact_mod_cast (by omega : h ≠ 0)
  split
  · next hle =>
    have heq : (f + r / (2 * h) : ℚ) - 1 / 2 = f + (r - h : ℤ) / (2 * h) := by
      push_cast; field_simp; ring
    rw [heq, ceil_quotient (by omega) (by omega)]
  · next hle =>
    have heq : (f + r / (2 * h) : ℚ) - 1 / 2 = (f - 1 : ℤ) + (r + h : ℤ) / (2 * h) := by
      push_cast; field_simp; ring
    rw [heq, ceil_quotient (by omega) (by omega), sub_add_cancel]

end Quotient

/-- The decision between the floor and the next integer is the mode's rounding of the quotient. -/
private theorem round_quotient (mode : Rounding) {raw f r h : ℤ} (hraw : raw = 2 * h * f + r)
    (hr : 0 < r) (hlt : r < 2 * h) :
    mode.round (f + r / (2 * h)) = if mode.roundsUp (raw < 0) f r h then f + 1 else f := by
  have hneg : ((f + r / (2 * h) : ℚ) < 0) ↔ raw < 0 := by
    rw [quotient_lt_zero (by omega), hraw]
  -- the two neighbours at one half differ only at the tie `r = h`, which the mode decides
  cases mode <;>
    simp only [round, roundsUp, hneg, floor_quotient hr.le hlt, ceil_quotient hr hlt.le,
      floor_quotient_add_half hr.le hlt, ceil_quotient_sub_half hr.le hlt, Int.even_iff,
      Bool.or_eq_true, Bool.and_eq_true, Bool.not_eq_true', decide_eq_true_eq,
      decide_eq_false_iff_not, beq_iff_eq, Bool.false_eq_true, reduceIte] <;>
    split_ifs <;> omega

/-- Dropping `shift` low bits rounds the quotient. -/
theorem shiftRight_eq_round (mode : Rounding) (raw : ℤ) {shift : ℕ} (hs : shift ≤ maxShift) :
    mode.shiftRight raw shift = mode.round (raw / 2 ^ shift) := by
  rw [shiftRight, Nat.min_eq_left hs]
  have hdiv := Int.mul_ediv_add_emod raw (2 ^ shift)
  split
  · next hrem =>
    rw [hrem, add_zero] at hdiv
    have heq : (raw : ℚ) / 2 ^ shift = (raw / 2 ^ shift : ℤ) := by
      rw [div_eq_iff (by positivity), mul_comm]
      exact_mod_cast hdiv.symm
    rw [heq, round_intCast]
  · next hrem =>
    cases shift with
    | zero => exact absurd (Int.emod_one raw) hrem
    | succ k =>
      have hpow : (2 : ℤ) ^ (k + 1) = 2 * 2 ^ k := pow_succ' 2 k
      rw [hpow] at hdiv hrem ⊢
      have hpos : (0 : ℤ) < 2 * 2 ^ k := by positivity
      have hlt := Int.emod_lt_of_pos raw hpos
      have hnonneg := Int.emod_nonneg raw hpos.ne'
      have heq : (raw : ℚ) / 2 ^ (k + 1) =
          (raw / (2 * 2 ^ k) : ℤ) + (raw % (2 * 2 ^ k) : ℤ) / (2 * (2 ^ k : ℤ)) := by
        have hcast : (raw : ℚ) = 2 * 2 ^ k * (raw / (2 * 2 ^ k) : ℤ) + (raw % (2 * 2 ^ k) : ℤ) := by
          exact_mod_cast hdiv.symm
        rw [div_eq_iff (by positivity), pow_succ', hcast]
        push_cast
        field_simp
      rw [heq, round_quotient mode hdiv.symm (by omega) hlt, Nat.add_sub_cancel]

/-- A short integer is rounded away by its sign, however many low bits are dropped. -/
theorem shiftRight_eq_round_of_abs_lt (mode : Rounding) {raw : ℤ} (h : |raw| < 2 ^ 125)
    (shift : ℕ) : mode.shiftRight raw shift = mode.round (raw / 2 ^ shift) := by
  rcases le_total shift maxShift with hs | hs
  · exact mode.shiftRight_eq_round raw hs
  · have hraw : |(raw : ℚ)| < 2 ^ 125 := by exact_mod_cast h
    have hhalf {s : ℕ} (hs : maxShift ≤ s) : |(raw : ℚ) / 2 ^ s| < 1 / 2 := by
      have hpow : (2 : ℚ) ^ maxShift ≤ 2 ^ s := pow_le_pow_right₀ (by norm_num) hs
      rw [abs_div, abs_of_pos (by positivity : (0 : ℚ) < 2 ^ s), div_lt_iff₀ (by positivity)]
      rw [maxShift] at hpow
      linarith
    have hsign {s : ℕ} : (raw : ℚ) / 2 ^ s < 0 ↔ raw < 0 := by
      rw [div_lt_iff₀ (by positivity), zero_mul]
      exact_mod_cast Iff.rfl
    have hcap : mode.shiftRight raw shift = mode.shiftRight raw maxShift := by
      unfold shiftRight
      rw [min_eq_right hs, min_self]
    rw [hcap, mode.shiftRight_eq_round raw le_rfl, mode.round_of_abs_lt_half (hhalf le_rfl),
      mode.round_of_abs_lt_half (hhalf hs)]
    simp only [hsign]

end Rounding

end Depthwise
