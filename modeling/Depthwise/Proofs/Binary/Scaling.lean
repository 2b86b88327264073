import Depthwise.Binary
import Mathlib.Data.Rat.Floor
import Mathlib.Tactic.Linarith
import Mathlib.Tactic.Ring

/-!
# Scaling up loses nothing

A finite pattern denotes a signed coefficient times a power of two, and its coefficient has at most
one bit more than the fraction field.  Such a number is encoded exactly, if it is not too large: the
coefficient is shifted until it has full length or the exponent is the least
(`exists_encodeMagnitude_eq`), and this pattern decodes to the shifted coefficient
(`decode_pattern`).

Scaling up therefore gives the exact number, or an infinity of its sign if it is beyond all finite
ones (`decode_scale`).  So the floor of a scaled number within bounds that are finite numbers is the
exact one (`floorWithin_scale`).
-/

namespace Depthwise.Binary

namespace Extended

/-! ### The number of a finite value -/

/-- The number `± coefficient * 2 ^ exponent`. -/
def dyadic (negative : Bool) (coefficient : ℕ) (exponent : ℤ) : ℚ :=
  (if negative then -1 else 1) * coefficient * 2 ^ exponent

/-- The number a finite value denotes. -/
def toRat? : Extended → Option ℚ
  | undefined => none
  | infinite _ => none
  | finite negative coefficient exponent => some (dyadic negative coefficient exponent)

theorem floorDyadic_eq (negative : Bool) (coefficient : ℕ) (exponent : ℤ) :
    floorDyadic negative coefficient exponent = ⌊dyadic negative coefficient exponent⌋ := by
  have hsigned : ((if negative then -(coefficient : ℤ) else coefficient : ℤ) : ℚ) =
      (if negative then -1 else 1) * coefficient := by
    cases negative <;> simp
  rw [floorDyadic, dyadic, ← hsigned]
  split
  · next h =>
    obtain ⟨k, rfl⟩ := Int.eq_ofNat_of_zero_le h
    rw [Int.toNat_natCast, zpow_natCast]
    exact_mod_cast (Int.floor_intCast _).symm
  · next h =>
    obtain ⟨k, rfl⟩ := Int.exists_eq_neg_ofNat (not_le.mp h).le
    rw [neg_neg, Int.toNat_natCast, zpow_neg, zpow_natCast, ← div_eq_mul_inv]
    exact_mod_cast (Rat.floor_intCast_div_natCast _ (2 ^ k)).symm

theorem exists_finite {x : Extended} {v : ℚ} (h : x.toRat? = some v) :
    ∃ negative c e, x = finite negative c e ∧ dyadic negative c e = v := by
  cases x with
  | undefined => cases h
  | infinite _ => cases h
  | finite negative c e => exact ⟨negative, c, e, rfl, Option.some.inj h⟩

theorem dyadic_mul_two_pow (negative : Bool) (c : ℕ) (e : ℤ) (k : ℕ) :
    dyadic negative c e * 2 ^ k = dyadic negative c (e + k) := by
  rw [dyadic, dyadic, zpow_add₀ two_ne_zero, zpow_natCast, mul_assoc, mul_assoc]

theorem abs_dyadic (negative : Bool) (c : ℕ) (e : ℤ) : |dyadic negative c e| = c * 2 ^ e := by
  have hnonneg : (0 : ℚ) ≤ c * 2 ^ e := mul_nonneg c.cast_nonneg (zpow_nonneg two_pos.le e)
  cases negative with
  | false => rw [dyadic, if_neg Bool.false_ne_true, one_mul, abs_of_nonneg hnonneg]
  | true => rw [dyadic, if_pos rfl, mul_assoc, neg_one_mul, abs_neg, abs_of_nonneg hnonneg]

end Extended

namespace Interchange

open Extended (dyadic)

variable (I : Interchange)

/-! ### Patterns and their fields -/

theorem topExponent_lt : I.topExponent < 2 ^ I.exponentBits :=
  Nat.sub_lt (Nat.two_pow_pos _) Nat.one_pos

/-- A pattern is read field by field. -/
theorem decode_fields (negative : Bool) {q f : ℕ} (hq : q < 2 ^ I.exponentBits)
    (hf : f < 2 ^ I.fractionBits) :
    I.decode ((if negative then I.signBit else 0) + (q * 2 ^ I.fractionBits + f)) =
      if q = I.topExponent then if f = 0 then .infinite negative else .undefined
      else if q = 0 then .finite negative f I.leastExponent
      else .finite negative (f + 2 ^ I.fractionBits) (I.leastExponent + (q - 1)) := by
  have hbits : (if negative then I.signBit else 0) + (q * 2 ^ I.fractionBits + f) =
      f + 2 ^ I.fractionBits * (q + 2 ^ I.exponentBits * if negative then 1 else 0) := by
    rw [signBit, pow_add]
    split <;> ring
  have hquotient : (f + 2 ^ I.fractionBits *
      (q + 2 ^ I.exponentBits * if negative then 1 else 0)) / 2 ^ I.fractionBits =
        q + 2 ^ I.exponentBits * if negative then 1 else 0 := by
    rw [Nat.add_mul_div_left _ _ (Nat.two_pow_pos _), Nat.div_eq_of_lt hf, zero_add]
  have hsign : (f + 2 ^ I.fractionBits *
      (q + 2 ^ I.exponentBits * if negative then 1 else 0)) / I.signBit =
        if negative then 1 else 0 := by
    rw [signBit, pow_add, ← Nat.div_div_eq_div_mul, hquotient,
      Nat.add_mul_div_left _ _ (Nat.two_pow_pos _), Nat.div_eq_of_lt hq, zero_add]
  have hnegative : ((if negative then 1 else 0) % 2 == 1) = negative := by
    cases negative <;> rfl
  rw [hbits, decode]
  simp only [hquotient, hsign, hnegative, Nat.add_mul_mod_self_left, Nat.mod_eq_of_lt hf,
    Nat.mod_eq_of_lt hq]

/-- A finite pattern has a short coefficient, and no exponent below the least. -/
theorem of_decode_eq_finite {bits : ℕ} {negative : Bool} {coefficient : ℕ} {exponent : ℤ}
    (h : I.decode bits = .finite negative coefficient exponent) :
    coefficient < 2 ^ (I.fractionBits + 1) ∧ ∃ d : ℕ, exponent = I.leastExponent + d := by
  have hfraction := Nat.mod_lt bits (Nat.two_pow_pos I.fractionBits)
  rw [decode] at h
  rw [pow_succ]
  split at h
  · split at h <;> cases h
  · next htop =>
    split at h
    · next hzero =>
      cases h
      exact ⟨by omega, 0, (add_zero _).symm⟩
    · next hzero =>
      cases h
      refine ⟨by omega, bits / 2 ^ I.fractionBits % 2 ^ I.exponentBits - 1, ?_⟩
      omega

theorem decode_infinityBits (negative : Bool) :
    I.decode ((if negative then I.signBit else 0) + I.infinityBits) = .infinite negative := by
  have h := I.decode_fields negative I.topExponent_lt (Nat.two_pow_pos I.fractionBits)
  rwa [add_zero, if_pos rfl, if_pos rfl] at h

/-- The pattern with a coefficient of full length, or with the least exponent. -/
theorem decode_pattern (negative : Bool) {c d : ℕ} (hc : c < 2 ^ (I.fractionBits + 1))
    (hnormal : d = 0 ∨ 2 ^ I.fractionBits ≤ c)
    (hlt : d * 2 ^ I.fractionBits + c < I.infinityBits) :
    I.decode ((if negative then I.signBit else 0) + (d * 2 ^ I.fractionBits + c)) =
      .finite negative c (I.leastExponent + d) := by
  rw [infinityBits] at hlt
  rcases lt_or_ge c (2 ^ I.fractionBits) with hshort | hfull
  · obtain rfl := hnormal.resolve_right (not_le.mpr hshort)
    have hpos : 0 < I.topExponent := Nat.pos_of_ne_zero fun h => by simp [h] at hlt
    rw [I.decode_fields negative (Nat.two_pow_pos _) hshort, if_neg hpos.ne, if_pos rfl,
      Nat.cast_zero, add_zero]
  · -- the leading bit of the coefficient is carried into the exponent field
    have hcarry : d * 2 ^ I.fractionBits + c =
        (d + 1) * 2 ^ I.fractionBits + (c - 2 ^ I.fractionBits) := by
      rw [Nat.succ_mul]
      omega
    have hd : d + 1 < I.topExponent :=
      lt_of_mul_lt_mul_right (((Nat.le_add_right _ _).trans_eq hcarry.symm).trans_lt hlt)
        (Nat.zero_le _)
    rw [pow_succ] at hc
    rw [hcarry, I.decode_fields negative (hd.trans I.topExponent_lt) (by omega), if_neg hd.ne,
      if_neg (Nat.succ_ne_zero d), Nat.sub_add_cancel hfull, Nat.cast_succ, add_sub_cancel_right]

/-! ### Encoding short coefficients -/

theorem roundEven_zero (n : ℕ) : roundEven n 0 = n := by
  rw [roundEven, if_neg (by omega)]
  simp only [pow_zero, Nat.div_one, Nat.mod_one]
  rw [if_neg (by omega)]

/-- A short coefficient is kept as it is, shifted as far as its length and the least exponent
allow. -/
theorem exists_encodeMagnitude_eq {c : ℕ} (hc : c < 2 ^ (I.fractionBits + 1)) (d : ℕ) :
    ∃ c' d', c' * 2 ^ d' = c * 2 ^ d ∧ c' < 2 ^ (I.fractionBits + 1) ∧
      (d' = 0 ∨ 2 ^ I.fractionBits ≤ c') ∧
      I.encodeMagnitude c (I.leastExponent + d) =
        min (d' * 2 ^ I.fractionBits + c') I.infinityBits := by
  rcases Nat.eq_zero_or_pos c with rfl | hpos
  · exact ⟨0, 0, by simp, by positivity, .inl rfl, by simp [encodeMagnitude]⟩
  · have hlength : c.log2 < I.fractionBits + 1 := (Nat.log2_lt hpos.ne').mpr hc
    have hlow : 2 ^ c.log2 ≤ c := Nat.log2_self_le hpos.ne'
    have hhigh : c < 2 ^ (c.log2 + 1) := Nat.lt_log2_self
    -- the exponent above the least one, and the places the coefficient is shifted for it
    obtain ⟨d', hd'⟩ : ∃ d', d' = d + c.log2 - I.fractionBits := ⟨_, rfl⟩
    obtain ⟨s, hs⟩ : ∃ s, d = d' + s := ⟨d - d', by omega⟩
    refine ⟨c * 2 ^ s, d', ?_, ?_, ?_, ?_⟩
    · rw [mul_assoc, ← pow_add, hs, Nat.add_comm s]
    · calc c * 2 ^ s < 2 ^ (c.log2 + 1) * 2 ^ s :=
            Nat.mul_lt_mul_of_pos_right hhigh (Nat.two_pow_pos s)
        _ ≤ 2 ^ (I.fractionBits + 1) := by
            rw [← pow_add]
            exact Nat.pow_le_pow_right Nat.two_pos (by omega)
    · refine (Nat.eq_zero_or_pos d').imp_right fun hpos' => ?_
      calc 2 ^ I.fractionBits = 2 ^ c.log2 * 2 ^ s := by
            rw [← pow_add]
            congr 1
            omega
        _ ≤ c * 2 ^ s := Nat.mul_le_mul_right _ hlow
    · have hlast : max (I.leastExponent + d + ((c.log2 : ℤ) + 1) - (I.fractionBits + 1))
          I.leastExponent = I.leastExponent + d' := by omega
      have hkept : (if I.leastExponent + d ≤ I.leastExponent + d' then
          roundEven c (I.leastExponent + d' - (I.leastExponent + d)).toNat
        else c * 2 ^ (I.leastExponent + d - (I.leastExponent + d')).toNat) = c * 2 ^ s := by
        have hshift : (I.leastExponent + d - (I.leastExponent + d')).toNat = s := by omega
        have hnone : (I.leastExponent + d' - (I.leastExponent + d)).toNat = 0 := by omega
        rw [hshift, hnone, roundEven_zero]
        split
        · obtain rfl : s = 0 := by omega
          rw [pow_zero, mul_one]
        · rfl
      rw [encodeMagnitude, if_neg hpos.ne']
      simp only [hlast, hkept, add_sub_cancel_left, Int.toNat_natCast]

/-! ### Scaling up -/

/-- The exponent of the least power of two beyond all finite numbers. -/
def overflowExponent : ℤ := I.leastExponent + I.topExponent + I.fractionBits - 1

/-- A pattern that runs into infinity is one of a number beyond all finite ones: only the greatest
exponents reach so far, and with them the coefficient has full length. -/
theorem two_zpow_overflowExponent_le (htop : 2 ≤ I.topExponent) {c d : ℕ}
    (hc : c < 2 ^ (I.fractionBits + 1)) (hnormal : d = 0 ∨ 2 ^ I.fractionBits ≤ c)
    (hge : I.infinityBits ≤ d * 2 ^ I.fractionBits + c) :
    (2 : ℚ) ^ I.overflowExponent ≤ c * 2 ^ (I.leastExponent + d) := by
  have hd : I.topExponent < d + 2 := by
    rw [infinityBits] at hge
    rw [pow_succ'] at hc
    refine lt_of_mul_lt_mul_right (hge.trans_lt ?_) (Nat.zero_le (2 ^ I.fractionBits))
    rw [Nat.add_mul]
    omega
  have hfull : 2 ^ I.fractionBits ≤ c := hnormal.resolve_left (by omega)
  calc (2 : ℚ) ^ I.overflowExponent
      ≤ 2 ^ (I.fractionBits + (I.leastExponent + d)) :=
        zpow_le_zpow_right₀ one_le_two (by unfold overflowExponent; omega)
    _ = 2 ^ I.fractionBits * 2 ^ (I.leastExponent + d) := by
        rw [zpow_add₀ two_ne_zero, zpow_natCast]
    _ ≤ c * 2 ^ (I.leastExponent + d) :=
        mul_le_mul_of_nonneg_right (by exact_mod_cast hfull) (zpow_nonneg two_pos.le _)

/-- **Scaling up is exact, or goes to infinity.**  A finite number, times a power of two that is no
fraction, is decoded as it is, unless it is beyond all finite numbers. -/
theorem decode_scale (htop : 2 ≤ I.topExponent) {bits : ℕ} {negative : Bool} {c : ℕ} {e : ℤ}
    (h : I.decode bits = .finite negative c e) (k : ℕ) :
    (∃ c' e', I.decode (I.scale bits k) = .finite negative c' e' ∧
        dyadic negative c' e' = dyadic negative c (e + k)) ∨
      (I.decode (I.scale bits k) = .infinite negative ∧
        (2 : ℚ) ^ I.overflowExponent ≤ c * 2 ^ (e + k)) := by
  obtain ⟨hc, d, rfl⟩ := I.of_decode_eq_finite h
  have hexponent : I.leastExponent + d + k = I.leastExponent + (d + k : ℕ) := by
    push_cast
    ring
  obtain ⟨c', d', hvalue, hc', hnormal, hencode⟩ := I.exists_encodeMagnitude_eq hc (d + k)
  have hscale : I.scale bits k = (if negative then I.signBit else 0) +
      min (d' * 2 ^ I.fractionBits + c') I.infinityBits := by
    rw [scale, h, Extended.scale, encode, hexponent, hencode]
  have hvalue' : (c' : ℚ) * 2 ^ (I.leastExponent + d') = c * 2 ^ (I.leastExponent + d + k) := by
    rw [hexponent, zpow_add₀ two_ne_zero, zpow_add₀ two_ne_zero, mul_left_comm, zpow_natCast,
      mul_left_comm (c : ℚ), zpow_natCast]
    congr 1
    exact_mod_cast hvalue
  rcases lt_or_ge (d' * 2 ^ I.fractionBits + c') I.infinityBits with hlt | hge
  · refine .inl ⟨c', I.leastExponent + d', ?_, ?_⟩
    · rw [hscale, min_eq_left hlt.le, I.decode_pattern negative hc' hnormal hlt]
    · rw [dyadic, dyadic, mul_assoc, hvalue', mul_assoc]
  · refine .inr ⟨by rw [hscale, min_eq_right hge, I.decode_infinityBits], ?_⟩
    exact (I.two_zpow_overflowExponent_le htop hc' hnormal hge).trans_eq hvalue'

/-- The floor of a scaled number within finite bounds is the exact one. -/
theorem floorWithin_scale (htop : 2 ≤ I.topExponent) {bits : ℕ} {v : ℚ}
    (h : (I.decode bits).toRat? = some v) (k : ℕ) {lo hi : ℤ} (hle : lo ≤ hi)
    (hlo : -(2 : ℚ) ^ I.overflowExponent ≤ lo) (hhi : (hi : ℚ) ≤ 2 ^ I.overflowExponent) :
    (I.decode (I.scale bits k)).floorWithin lo hi = max lo (min ⌊v * 2 ^ k⌋ hi) := by
  obtain ⟨negative, c, e, hdecode, rfl⟩ := Extended.exists_finite h
  rw [Extended.dyadic_mul_two_pow]
  rcases I.decode_scale htop hdecode k with ⟨c', e', hscale, hvalue⟩ | ⟨hscale, hlarge⟩
  · rw [hscale, Extended.floorWithin, Extended.floorDyadic_eq, hvalue]
  · -- beyond the finite numbers the floor is beyond the bounds
    rw [hscale, Extended.floorWithin]
    cases negative with
    | false =>
        have hfloor : hi ≤ ⌊dyadic false c (e + k)⌋ := by
          rw [Int.le_floor, dyadic, if_neg Bool.false_ne_true, one_mul]
          exact hhi.trans hlarge
        rw [min_eq_right hfloor, max_eq_right hle]
        rfl
    | true =>
        have hfloor : ⌊dyadic true c (e + k)⌋ ≤ lo := by
          refine Int.cast_le.mp ((Int.floor_le _).trans (le_trans ?_ hlo))
          rw [dyadic, if_pos rfl, neg_one_mul, neg_mul]
          exact neg_le_neg hlarge
        rw [min_eq_left (hfloor.trans hle), max_eq_left hfloor]
        rfl

/-- A large number is a multiple of a power of two, its coefficient being short. -/
theorem exists_eq_mul_two_pow {bits : ℕ} {v : ℚ} (h : (I.decode bits).toRat? = some v) {j k : ℕ}
    (hlarge : (2 : ℚ) ^ (I.fractionBits + 1 + j) ≤ |v * 2 ^ k|) :
    ∃ m : ℤ, v * 2 ^ k = (m * 2 ^ j : ℤ) := by
  obtain ⟨negative, c, e, hdecode, rfl⟩ := Extended.exists_finite h
  obtain ⟨hc, -⟩ := I.of_decode_eq_finite hdecode
  rw [Extended.dyadic_mul_two_pow] at hlarge ⊢
  have hexponent : (j : ℤ) ≤ e + k := by
    by_contra hlt
    have hpow : (2 : ℚ) ^ (e + k) ≤ 2 ^ j := by
      rw [← zpow_natCast]
      exact zpow_le_zpow_right₀ one_le_two (not_le.mp hlt).le
    have hshort : (c : ℚ) < 2 ^ (I.fractionBits + 1) := by exact_mod_cast hc
    rw [Extended.abs_dyadic, pow_add _ _ j] at hlarge
    refine absurd hlarge (not_le.mpr ?_)
    calc (c : ℚ) * 2 ^ (e + k) ≤ c * 2 ^ j := mul_le_mul_of_nonneg_left hpow c.cast_nonneg
      _ < 2 ^ (I.fractionBits + 1) * 2 ^ j := mul_lt_mul_of_pos_right hshort (by positivity)
  obtain ⟨s, hs⟩ := Int.le.dest hexponent
  refine ⟨(if negative then -1 else 1) * c * 2 ^ s, ?_⟩
  rw [dyadic, ← hs, add_comm (j : ℤ), zpow_add₀ two_ne_zero, zpow_natCast, zpow_natCast]
  push_cast
  ring

end Interchange

end Depthwise.Binary
