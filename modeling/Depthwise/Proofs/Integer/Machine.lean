import Depthwise.Proofs.Numerics.Signatures
import Mathlib.Algebra.Order.Group.Abs
import Mathlib.Algebra.Order.Ring.Abs
import Mathlib.Data.Int.Notation

/-!
# Machine integers

The operations of a machine integer are those of the integers, brought back to its bits (`Word`).
An operation is **exact** when nothing has to be brought back.

* `toInt?_widen?`: a widening keeps the integer.
* `Scheme.multiplies_product?`: the products of all schemes that multiply are exact, whatever the
  operands, since they are formed in a type of at least twice the bits.  A binary operand stands
  for `1` or `-1`, a ternary weight for its sign.
* `Accumulator.Wraps`: sums are not exact, but bringing back after every term (`accumulate`) is
  bringing back once, at the end (`foldl_accumulate`).
-/

namespace Depthwise

/-! ### Words -/

/-- Bringing back is not needed for products of few bits. -/
theorem bmod_mul_of_abs_le {x v : ℤ} {m n bits : ℕ} (hx : |x| ≤ 2 ^ m) (hv : |v| ≤ 2 ^ n)
    (h : m + n + 1 < bits) : (x * v).bmod (2 ^ bits) = x * v := by
  have habs : |x * v| ≤ 2 ^ (m + n) := by
    rw [abs_mul, pow_add]
    exact mul_le_mul hx hv (abs_nonneg v) (pow_nonneg (by decide) m)
  have hpow : (2 : ℤ) ^ (m + n) * 2 < 2 ^ bits := by
    rw [← pow_succ]
    exact pow_lt_pow_right₀ (by decide) h
  obtain ⟨hlo, hhi⟩ := abs_le.mp habs
  refine Int.bmod_eq_of_le_mul_two ?_ ?_
  · push_cast
    omega
  · push_cast
    omega

/-- A type of machine integers of so many bits, each with the integer it stands for. -/
structure Word (A : Type) [Add A] [Mul A] [Neg A] (bits : ℕ) (value : A → ℤ) : Prop where
  bmod_value : ∀ a, (value a).bmod (2 ^ bits) = value a
  value_add : ∀ a b, value (a + b) = (value a + value b).bmod (2 ^ bits)
  value_mul : ∀ a b, value (a * b) = (value a * value b).bmod (2 ^ bits)
  value_neg : ∀ a, value (-a) = (-value a).bmod (2 ^ bits)

theorem word_int32 : Word Int32 32 Int32.toInt :=
  ⟨Int32.toInt_bmod, Int32.toInt_add, Int32.toInt_mul, Int32.toInt_neg⟩

theorem word_int64 : Word Int64 64 Int64.toInt :=
  ⟨Int64.toInt_bmod, Int64.toInt_add, Int64.toInt_mul, Int64.toInt_neg⟩

/-! ### Widening -/

namespace Element

/-- The integers an element type stands for need no more than its bits. -/
theorem toInt?_bounds {e : Element} {x : e.Value → ℤ} (hx : e.toInt? = some x) (a : e.Value) :
    -2 ^ (e.bits - 1) ≤ x a ∧ x a < 2 ^ (e.bits - 1) := by
  cases e with
  | int8 => cases hx; exact ⟨Int8.le_toInt a, Int8.toInt_lt a⟩
  | uint8 =>
      cases hx
      have hlt : a.toNat < 256 := a.toNat_lt
      simp only [bits]
      omega
  | int16 => cases hx; exact ⟨Int16.le_toInt a, Int16.toInt_lt a⟩
  | int32 => cases hx; exact ⟨Int32.le_toInt a, Int32.toInt_lt a⟩
  | int64 => cases hx; exact ⟨Int64.le_toInt a, Int64.toInt_lt a⟩
  | bool => cases hx; cases a <;> decide
  | single | double | fixed | power => cases hx

theorem abs_toInt?_le {e : Element} {x : e.Value → ℤ} (hx : e.toInt? = some x) (a : e.Value) :
    |x a| ≤ 2 ^ (e.bits - 1) := by
  obtain ⟨hlo, hhi⟩ := toInt?_bounds hx a
  exact abs_le.mpr ⟨hlo, hhi.le⟩

/-- An integer of few bits is read back as it was. -/
theorem value_ofInt {src : Element} {A : Type} {ofInt : ℤ → A} {value : A → ℤ} {n : ℕ}
    {f : src.Value → A} {x : src.Value → ℤ}
    (hofInt : ∀ {i : ℤ}, -2 ^ n ≤ i → i < 2 ^ n → value (ofInt i) = i)
    (hx : src.toInt? = some x) (hn : src.bits < n + 1)
    (h : src.toInt?.map (ofInt ∘ ·) = some f) (a : src.Value) : value (f a) = x a := by
  rw [hx] at h
  cases h
  obtain ⟨hlo, hhi⟩ := toInt?_bounds hx a
  have hpow : (2 : ℤ) ^ (src.bits - 1) ≤ 2 ^ n := pow_le_pow_right₀ (by decide) (by omega)
  exact hofInt (by omega) (by omega)

/-- **A widening keeps the integer.** -/
theorem toInt?_widen? {src dst : Element} {f : src.Value → dst.Value} {x : src.Value → ℤ}
    {y : dst.Value → ℤ} (h : src.widen? dst = some f) (hx : src.toInt? = some x)
    (hy : dst.toInt? = some y) (a : src.Value) : y (f a) = x a := by
  unfold widen? at h
  split at h
  · next heq =>
    subst heq
    cases h
    cases hx.symm.trans hy
    rfl
  · split at h
    · cases hy
    · split at h
      · next hbits =>
        cases hy
        exact value_ofInt Int16.toInt_ofInt_of_le hx hbits h a
      · cases h
    · split at h
      · next hbits =>
        cases hy
        exact value_ofInt Int32.toInt_ofInt_of_le hx hbits h a
      · cases h
    · split at h
      · next hbits =>
        cases hy
        exact value_ofInt Int64.toInt_ofInt_of_le hx hbits h a
      · cases h
    · cases hy
    · cases hy
    · cases h

/-- What a machine integer holds are integers. -/
theorem exists_toInt? {src dst : Element} (hdst : dst = .int32 ∨ dst = .int64)
    (h : src ∈ dst.holds) : ∃ x, src.toInt? = some x := by
  have hall : ∀ e ∈ dst.holds, e.toInt?.isSome := by
    rcases hdst with rfl | rfl <;> decide
  exact Option.isSome_iff_exists.mp (hall src h)

end Element

/-! ### Products -/

/-- The integer a binary operand stands for. -/
def signOf (b : Bool) : ℤ := if b then 1 else -1

/-- The sign of a weight that is not zero, which is that of the least weight too. -/
theorem signOf_pos {w : Int8} (hw : w ≠ 0) : signOf (0 < w) = w.toInt.sign := by
  have hne : w.toInt ≠ 0 := fun h0 => hw (Int8.toInt_inj.mp h0)
  rcases lt_or_gt_of_ne hne with hneg | hpos
  · have hlt : ¬ 0 < w := fun hlt => absurd (Int8.lt_iff_toInt_lt.mp hlt) (not_lt.mpr hneg.le)
    rw [Int.sign_eq_neg_one_of_neg hneg, decide_eq_false hlt]
    rfl
  · have hlt : 0 < w := Int8.lt_iff_toInt_lt.mpr hpos
    rw [Int.sign_eq_one_of_pos hpos, decide_eq_true hlt]
    rfl

namespace Word

variable {D W A : Type} [Add A] [Mul A] [Neg A] {bits m n : ℕ} {value : A → ℤ}
  {f : D → A} {g : W → A} {x : D → ℤ} {v : W → ℤ}

theorem value_plainProduct (hA : Word A bits value) (hf : ∀ d, value (f d) = x d)
    (hg : ∀ w, value (g w) = v w) (hx : ∀ d, |x d| ≤ 2 ^ m) (hv : ∀ w, |v w| ≤ 2 ^ n)
    (h : m + n + 1 < bits) (d : D) (w : W) : value (plainProduct f g d w) = x d * v w := by
  rw [plainProduct, hA.value_mul, hf, hg, bmod_mul_of_abs_le (hx d) (hv w) h]

/-- The negative of a value of few bits is exact. -/
theorem value_signed (hA : Word A bits value) {p : A} (hp : |value p| ≤ 2 ^ m) (h : m + 1 < bits)
    (b : Bool) : value (signed b p) = value p * signOf b := by
  cases b with
  | false =>
      have hone : |(-1 : ℤ)| ≤ 2 ^ 0 := by decide
      show value (-p) = value p * -1
      rw [hA.value_neg, ← mul_neg_one, bmod_mul_of_abs_le hp hone h]
  | true => exact (mul_one (value p)).symm

theorem value_binaryWeightProduct (hA : Word A bits value) (hf : ∀ d, value (f d) = x d)
    (hx : ∀ d, |x d| ≤ 2 ^ m) (h : m + 1 < bits) (d : D) (w : Bool) :
    value (binaryWeightProduct f d w) = x d * signOf w := by
  rw [binaryWeightProduct, hA.value_signed (hf d ▸ hx d) h, hf]

theorem value_binaryDataProduct (hA : Word A bits value) (hg : ∀ w, value (g w) = v w)
    (hv : ∀ w, |v w| ≤ 2 ^ n) (h : n + 1 < bits) (d : Bool) (w : W) :
    value (binaryDataProduct g d w) = signOf d * v w := by
  rw [binaryDataProduct, hA.value_signed (hg w ▸ hv w) h, hg, mul_comm]

theorem value_ternaryProduct (hA : Word A bits value) {zero : A} (hzero : value zero = 0)
    (hf : ∀ d, value (f d) = x d) (hx : ∀ d, |x d| ≤ 2 ^ m) (h : m + 1 < bits) (d : D)
    (w : Int8) : value (ternaryProduct zero f d w) = x d * w.toInt.sign := by
  unfold ternaryProduct
  split
  · next hw => rw [hw, hzero, Int8.toInt_zero, Int.sign_zero, mul_zero]
  · next hw =>
    rw [hA.value_signed (hf d ▸ hx d) h, hf, signOf_pos hw]

end Word

namespace Scheme

/-- The integer a sample stands for, under a scheme that multiplies. -/
def sample? : Scheme → (d : Element) → Option (d.Value → ℤ)
  | plain, d => d.toInt?
  | binaryWeight, d => d.toInt?
  | binaryData, .bool => some signOf
  | ternaryWeight, d => d.toInt?
  | _, _ => none

/-- The integer a weight stands for, under a scheme that multiplies. -/
def weight? : Scheme → (w : Element) → Option (w.Value → ℤ)
  | plain, w => w.toInt?
  | binaryWeight, .bool => some signOf
  | binaryData, w => w.toInt?
  | ternaryWeight, .int8 => some fun w => w.toInt.sign
  | _, _ => none

/-- The operands of a product that is a machine integer stand for integers, unless they are only
compared. -/
theorem exists_operands {s : Scheme} {d w p : Element} (hs : (d, w, p) ∈ s.signatures)
    (hboth : s ≠ bothBinary) (hp : p = .int32 ∨ p = .int64) :
    (∃ x, s.sample? d = some x) ∧ ∃ v, s.weight? w = some v := by
  have hrows : ∀ row ∈ s.signatures, row.2.2 = .int32 ∨ row.2.2 = .int64 →
      (s.sample? row.1).isSome ∧ (s.weight? row.2.1).isSome := by
    cases s with
    | bothBinary => exact absurd rfl hboth
    | _ => decide
  obtain ⟨hsample, hweight⟩ := hrows _ hs hp
  exact ⟨Option.isSome_iff_exists.mp hsample, Option.isSome_iff_exists.mp hweight⟩

variable {d w : Element} {t : Typed d w} {x : d.Value → ℤ} {v : w.Value → ℤ}

/-- A product of an integer type that is exactly that of the integers `x` and `v` read off its
operands. -/
def Typed.Multiplies (t : Typed d w) (x : d.Value → ℤ) (v : w.Value → ℤ) : Prop :=
  ∃ p, t.result.toInt? = some p ∧ ∀ a b, p (t.product a b) = x a * v b

theorem toInt_ofNat_uint8 (d : UInt8) : (Int32.ofNat d.toNat).toInt = d.toNat :=
  Int32.toInt_ofNat_of_lt (Nat.lt_trans d.toNat_lt (by decide))

theorem multiplies_plain? (h : plain? d w = some t) (hx : d.toInt? = some x)
    (hv : w.toInt? = some v) : t.Multiplies x v := by
  have hx' := Element.abs_toInt?_le hx
  have hv' := Element.abs_toInt?_le hv
  unfold plain? at h
  split at h
  · cases hx
  · cases hx
  · cases h; cases hx; cases hv
    exact ⟨_, rfl, word_int32.value_plainProduct Int8.toInt_toInt32 Int8.toInt_toInt32 hx' hv'
      (by decide)⟩
  · cases h; cases hx; cases hv
    exact ⟨_, rfl, word_int32.value_plainProduct toInt_ofNat_uint8 Int8.toInt_toInt32 hx' hv'
      (by decide)⟩
  · cases h; cases hx; cases hv
    exact ⟨_, rfl, word_int32.value_plainProduct Int16.toInt_toInt32 Int16.toInt_toInt32 hx' hv'
      (by decide)⟩
  · cases h; cases hx; cases hv
    exact ⟨_, rfl, word_int64.value_plainProduct Int32.toInt_toInt64 Int32.toInt_toInt64 hx' hv'
      (by decide)⟩
  · cases hx
  · cases h

theorem multiplies_binaryWeight? (h : binaryWeight? d w = some t) (hx : d.toInt? = some x)
    (hv : binaryWeight.weight? w = some v) : t.Multiplies x v := by
  have hx' := Element.abs_toInt?_le hx
  unfold binaryWeight? at h
  split at h
  · cases hx
  · cases hx
  · cases h; cases hx; cases hv
    exact ⟨_, rfl, word_int32.value_binaryWeightProduct Int8.toInt_toInt32 hx' (by decide)⟩
  · cases h; cases hx; cases hv
    exact ⟨_, rfl, word_int32.value_binaryWeightProduct Int16.toInt_toInt32 hx' (by decide)⟩
  · cases hx
  · cases h

theorem multiplies_binaryData? (h : binaryData? d w = some t) (hx : binaryData.sample? d = some x)
    (hv : w.toInt? = some v) : t.Multiplies x v := by
  have hv' := Element.abs_toInt?_le hv
  unfold binaryData? at h
  split at h
  · cases hv
  · cases hv
  · cases h; cases hx; cases hv
    exact ⟨_, rfl, word_int32.value_binaryDataProduct Int8.toInt_toInt32 hv' (by decide)⟩
  · cases h; cases hx; cases hv
    exact ⟨_, rfl, word_int32.value_binaryDataProduct Int16.toInt_toInt32 hv' (by decide)⟩
  · cases hv
  · cases h

theorem multiplies_ternaryWeight? (h : ternaryWeight? d w = some t) (hx : d.toInt? = some x)
    (hv : ternaryWeight.weight? w = some v) : t.Multiplies x v := by
  have hx' := Element.abs_toInt?_le hx
  unfold ternaryWeight? at h
  split at h
  · cases hx
  · cases hx
  · cases h; cases hx; cases hv
    exact ⟨_, rfl, word_int32.value_ternaryProduct Int32.toInt_zero Int8.toInt_toInt32 hx'
      (by decide)⟩
  · cases h; cases hx; cases hv
    exact ⟨_, rfl, word_int32.value_ternaryProduct Int32.toInt_zero Int16.toInt_toInt32 hx'
      (by decide)⟩
  · cases hx
  · cases h

/-- **Every product is exact**, under the schemes that multiply. -/
theorem multiplies_product? {s : Scheme} (h : s.product? d w = some t) (hx : s.sample? d = some x)
    (hv : s.weight? w = some v) : t.Multiplies x v := by
  cases s with
  | plain => exact multiplies_plain? h hx hv
  | binaryWeight => exact multiplies_binaryWeight? h hx hv
  | binaryData => exact multiplies_binaryData? h hx hv
  | ternaryWeight => exact multiplies_ternaryWeight? h hx hv
  | bothBinary => cases hx
  | exponentialWeight => cases hx

end Scheme

/-! ### Sums -/

namespace Accumulator

/-- An accumulator whose sums are those of the integers, brought back to `bits` bits. -/
structure Wraps {B P A : Type} (acc : Accumulator B P A) (bits : ℕ) (bias : B → ℤ)
    (product : P → ℤ) (value : A → ℤ) : Prop where
  value_seed : ∀ b, value (acc.seed b) = bias b
  bmod_value : ∀ a, (value a).bmod (2 ^ bits) = value a
  value_accumulate : ∀ a p, value (acc.accumulate a p) = (value a + product p).bmod (2 ^ bits)

variable {B P A : Type} {bits : ℕ} {bias : B → ℤ} {product : P → ℤ} {value : A → ℤ}

/-- **A run is brought back once**, however often its sums have been. -/
theorem Wraps.foldl_accumulate {acc : Accumulator B P A} (h : acc.Wraps bits bias product value)
    (products : List P) (a : A) :
    value (products.foldl acc.accumulate a) =
      (value a + (products.map product).sum).bmod (2 ^ bits) := by
  induction products generalizing a with
  | nil => rw [List.foldl_nil, List.map_nil, List.sum_nil, add_zero, h.bmod_value]
  | cons p products ih =>
      rw [List.foldl_cons, ih, h.value_accumulate, Int.bmod_add_bmod, List.map_cons,
        List.sum_cons, add_assoc]

/-- Sums in a machine integer wrap. -/
theorem wraps_native [Add A] [Mul A] [Neg A] (hA : Word A bits value) {f : B → A} {g : P → A}
    (hf : ∀ b, value (f b) = bias b) (hg : ∀ p, value (g p) = product p) (ordered : Bool) :
    (native ordered f g).Wraps bits bias product value where
  value_seed := hf
  bmod_value := hA.bmod_value
  value_accumulate a p := by rw [native, hA.value_add, hg]

/-- **The accumulators of integers wrap**, at 32 or at 64 bits. -/
theorem Kind.typed?_wraps {kind : Kind} {b p : Element} {acc : Typed b p} {y : b.Value → ℤ}
    {z : p.Value → ℤ} {r : acc.result.Value → ℤ} (h : kind.typed? b p = some acc)
    (hb : b.toInt? = some y) (hp : p.toInt? = some z) (hr : acc.result.toInt? = some r) :
    (acc.result.bits = 32 ∨ acc.result.bits = 64) ∧
      acc.accumulator.Wraps acc.result.bits y z r := by
  cases makes_of_typed? h with
  | single | double => cases hr
  | int32 hseed hwiden =>
      cases hr
      exact ⟨.inl rfl, wraps_native word_int32 (Element.toInt?_widen? hseed hb rfl)
        (Element.toInt?_widen? hwiden hp rfl) false⟩
  | int64 hseed hwiden =>
      cases hr
      exact ⟨.inr rfl, wraps_native word_int64 (Element.toInt?_widen? hseed hb rfl)
        (Element.toInt?_widen? hwiden hp rfl) false⟩
  | precision => cases hb

end Accumulator

end Depthwise
