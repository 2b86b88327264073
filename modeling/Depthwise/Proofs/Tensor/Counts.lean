import Depthwise.Tensor
import Mathlib.Algebra.BigOperators.Group.List.Basic
import Mathlib.Tactic.Ring

/-!
# Element counts

The saturating count of a layout is the exact one up to the limit, in whatever order its extents are
multiplied.  The checked count is not: it is absent as soon as one of the products on the way does
not fit (`Count.foldlM_mul?_eq_some`), although a zero behind that product may make the whole fit.

Every product on the way divides the whole, so this takes a zero: on positive extents the checked
count is exact, or absent where the exact one does not fit (`Count.foldlM_mul?_eq_checked_iff`).  A
layout with such a **late zero** counts no element, saturating, and has no checked count
(`element_counts`); `checkedLen_lateZero` is one.
-/

namespace Depthwise

namespace Count

/-- The products on the way, `a` being multiplied by one factor after another. -/
def partials (a : Nat) : List Nat → List Nat
  | [] => []
  | b :: l => a * b :: partials (a * b) l

/-- A checked product is there when every product on the way fits. -/
theorem foldlM_mul?_eq_some {a n : Nat} {l : List Nat} :
    l.foldlM mul? a = some n ↔ (∀ p ∈ partials a l, p ≤ limit) ∧ a * l.prod = n := by
  induction l generalizing a with
  | nil => simp [partials]
  | cons b l ih =>
      rw [List.foldlM_cons, partials, List.forall_mem_cons, List.prod_cons, ← Nat.mul_assoc]
      constructor
      · intro h
        obtain ⟨_, hab, hrest⟩ := Option.bind_eq_some_iff.mp h
        obtain ⟨hfit, rfl⟩ := mul?_eq_some.mp hab
        obtain ⟨hfits, hn⟩ := ih.mp hrest
        exact ⟨⟨hfit, hfits⟩, hn⟩
      · rintro ⟨⟨hfit, hfits⟩, hn⟩
        exact Option.bind_eq_some_iff.mpr ⟨_, mul?_of_le hfit, ih.mpr ⟨hfits, hn⟩⟩

/-- It is absent as soon as one of them does not. -/
theorem foldlM_mul?_eq_none {a : Nat} {l : List Nat} :
    l.foldlM mul? a = none ↔ ∃ p ∈ partials a l, limit < p := by
  induction l generalizing a with
  | nil => simp [partials]
  | cons b l ih =>
      rw [List.foldlM_cons, partials, List.exists_mem_cons_iff, ← ih]
      rcases Nat.lt_or_ge limit (a * b) with hlt | hge
      · rw [mul?_eq_none.mpr hlt]
        exact iff_of_true rfl (.inl hlt)
      · rw [mul?_of_le hge]
        exact (or_iff_right (Nat.not_lt_of_le hge)).symm

theorem dvd_of_mem_partials {a p : Nat} {l : List Nat} (h : p ∈ partials a l) :
    p ∣ a * l.prod := by
  induction l generalizing a with
  | nil => cases h
  | cons b l ih =>
      rw [List.prod_cons, ← Nat.mul_assoc]
      rcases List.mem_cons.mp h with rfl | hrest
      · exact Nat.dvd_mul_right _ _
      · exact ih hrest

/-- The whole is the last of the products on the way. -/
theorem mul_prod_mem_partials {a b : Nat} {l : List Nat} :
    a * (b :: l).prod ∈ partials a (b :: l) := by
  induction l generalizing a b with
  | nil => simp [partials]
  | cons c l ih =>
      rw [List.prod_cons, ← Nat.mul_assoc]
      exact List.mem_cons_of_mem _ ih

/-- **A checked product is exact** unless it is zero and a product on the way does not fit. -/
theorem foldlM_mul?_eq_checked_iff {a b : Nat} {l : List Nat} :
    (b :: l).foldlM mul? a = checked (a * (b :: l).prod) ↔
      ¬ (a * (b :: l).prod = 0 ∧ ∃ p ∈ partials a (b :: l), limit < p) := by
  constructor
  · rintro h ⟨hzero, hlate⟩
    rw [foldlM_mul?_eq_none.mpr hlate, hzero] at h
    cases h
  · intro h
    rcases Nat.lt_or_ge limit (a * (b :: l).prod) with hlt | hge
    · rw [checked_eq_none.mpr hlt, foldlM_mul?_eq_none]
      exact ⟨_, mul_prod_mem_partials, hlt⟩
    · rw [checked_eq_some.mpr ⟨hge, rfl⟩, foldlM_mul?_eq_some]
      refine ⟨fun p hp => ?_, rfl⟩
      rcases Nat.eq_zero_or_pos (a * (b :: l).prod) with hzero | hpos
      · exact Nat.le_of_not_lt fun hlt => h ⟨hzero, p, hp, hlt⟩
      · exact (Nat.le_of_dvd hpos (dvd_of_mem_partials hp)).trans hge

/-- Only then can it be absent while the saturating one is below the limit. -/
theorem foldlM_mul?_eq_none_and_iff {a b : Nat} {l : List Nat} :
    (b :: l).foldlM mul? a = none ∧ min (a * (b :: l).prod) limit ≠ limit ↔
      a * (b :: l).prod = 0 ∧ ∃ p ∈ partials a (b :: l), limit < p := by
  constructor
  · rintro ⟨hnone, hlen⟩
    by_contra h
    rw [foldlM_mul?_eq_checked_iff.mpr h, checked_eq_none] at hnone
    exact hlen (Nat.min_eq_right hnone.le)
  · rintro ⟨hzero, hlate⟩
    rw [hzero]
    exact ⟨foldlM_mul?_eq_none.mpr hlate, by decide⟩

theorem min_limit_eq_zero {n : Nat} : min n limit = 0 ↔ n = 0 := by
  have hlimit : 0 < limit := by decide
  omega

end Count

/-! ### Layouts -/

namespace FeatureMap

variable (m : FeatureMap)

/-- There is no element, and those of a single channel would already be too many. -/
def LateZero : Prop := m.count = 0 ∧ Count.limit < m.height * m.width

theorem isEmpty_iff : m.isEmpty = true ↔ m.count = 0 := by
  rw [isEmpty, beq_iff_eq, len_eq, Count.min_limit_eq_zero]

theorem checkedLen_eq_foldlM : m.checkedLen = [m.width, m.channels].foldlM Count.mul? m.height := by
  simp [checkedLen]

theorem count_eq_mul_prod : m.count = m.height * [m.width, m.channels].prod := by
  simp [count, Nat.mul_assoc]

/-- The last product on the way is the whole, which is zero. -/
theorem lateZero_iff :
    m.LateZero ↔ m.count = 0 ∧
      ∃ p ∈ Count.partials m.height [m.width, m.channels], Count.limit < p := by
  refine and_congr_right fun hzero => ?_
  unfold count at hzero
  simp [Count.partials, hzero]

theorem checkedLen_eq_checked_iff : m.checkedLen = Count.checked m.count ↔ ¬ m.LateZero := by
  rw [m.lateZero_iff, m.checkedLen_eq_foldlM, m.count_eq_mul_prod]
  exact Count.foldlM_mul?_eq_checked_iff

theorem checkedLen_eq_none_and_iff :
    m.checkedLen = none ∧ m.len ≠ Count.limit ↔ m.LateZero := by
  rw [m.lateZero_iff, m.checkedLen_eq_foldlM, m.len_eq, m.count_eq_mul_prod]
  exact Count.foldlM_mul?_eq_none_and_iff

variable {m}

/-- The channels are multiplied last. -/
theorem not_lateZero (hc : 0 < m.channels) : ¬ m.LateZero := by
  rintro ⟨hzero, hlate⟩
  have hpos : 0 < m.height * m.width * m.channels := Nat.mul_pos (Nat.zero_lt_of_lt hlate) hc
  exact absurd hzero (Nat.ne_of_gt hpos)

end FeatureMap

namespace FilterBank

variable (b : FilterBank)

/-- There is no weight, and those of a single channel at a single depth, or of all channels at one,
would already be too many. -/
def LateZero : Prop :=
  b.count = 0 ∧
    (Count.limit < b.height * b.width ∨ Count.limit < b.height * b.width * b.channels)

theorem isEmpty_iff : b.isEmpty = true ↔ b.count = 0 := by
  rw [isEmpty, beq_iff_eq, len_eq, Count.min_limit_eq_zero]

theorem checkedLen_eq_foldlM :
    b.checkedLen = [b.width, b.channels, b.depthMultiplier].foldlM Count.mul? b.height := by
  simp [checkedLen]

theorem count_eq_mul_prod :
    b.count = b.height * [b.width, b.channels, b.depthMultiplier].prod := by
  simp only [count, List.prod_cons, List.prod_nil]
  ring

/-- The last product on the way is the whole, which is zero. -/
theorem lateZero_iff :
    b.LateZero ↔ b.count = 0 ∧
      ∃ p ∈ Count.partials b.height [b.width, b.channels, b.depthMultiplier],
        Count.limit < p := by
  refine and_congr_right fun hzero => ?_
  have hwhole : b.height * b.width * b.channels * b.depthMultiplier = 0 := by
    rw [← hzero, count]
    ring
  simp [Count.partials, hwhole]

theorem checkedLen_eq_checked_iff : b.checkedLen = Count.checked b.count ↔ ¬ b.LateZero := by
  rw [b.lateZero_iff, b.checkedLen_eq_foldlM, b.count_eq_mul_prod]
  exact Count.foldlM_mul?_eq_checked_iff

theorem checkedLen_eq_none_and_iff :
    b.checkedLen = none ∧ b.len ≠ Count.limit ↔ b.LateZero := by
  rw [b.lateZero_iff, b.checkedLen_eq_foldlM, b.len_eq, b.count_eq_mul_prod]
  exact Count.foldlM_mul?_eq_none_and_iff

variable {b}

/-- The channels and the depths are multiplied last. -/
theorem not_lateZero (hc : 0 < b.channels) (hd : 0 < b.depthMultiplier) : ¬ b.LateZero := by
  rintro ⟨hzero, hlate⟩
  have hplane : 0 < b.height * b.width := by
    rcases hlate with hlate | hlate
    · exact Nat.zero_lt_of_lt hlate
    · exact Nat.pos_of_mul_pos_right (Nat.zero_lt_of_lt hlate)
  have hpos : 0 < b.depthMultiplier * (b.height * b.width) * b.channels :=
    Nat.mul_pos (Nat.mul_pos hd hplane) hc
  rw [← Nat.mul_assoc] at hpos
  exact absurd hzero (Nat.ne_of_gt hpos)

end FilterBank

/-- **What the counts of a layout report**, whatever its extents are.  The saturating count is the
exact one up to the limit, so that a layout is empty just when it has no element.  The checked count
is the exact one, absent where that does not fit, unless a zero comes too late; and a late zero is
the only way for it to be absent while the saturating count is below the limit. -/
theorem element_counts (m : FeatureMap) (b : FilterBank) :
    (m.len = min m.count Count.limit ∧ (m.isEmpty = true ↔ m.count = 0) ∧
        (m.checkedLen = Count.checked m.count ↔ ¬ m.LateZero) ∧
        (m.checkedLen = none ∧ m.len ≠ Count.limit ↔ m.LateZero)) ∧
      b.len = min b.count Count.limit ∧ (b.isEmpty = true ↔ b.count = 0) ∧
        (b.checkedLen = Count.checked b.count ↔ ¬ b.LateZero) ∧
        (b.checkedLen = none ∧ b.len ≠ Count.limit ↔ b.LateZero) :=
  ⟨⟨m.len_eq, m.isEmpty_iff, m.checkedLen_eq_checked_iff, m.checkedLen_eq_none_and_iff⟩,
    b.len_eq, b.isEmpty_iff, b.checkedLen_eq_checked_iff, b.checkedLen_eq_none_and_iff⟩

/-- A map of `2 ^ 32` rows and columns without channels has no element, which would fit, and no
checked count. -/
theorem FeatureMap.checkedLen_lateZero :
    let m : FeatureMap := ⟨2 ^ 32, 2 ^ 32, 0⟩
    m.count = 0 ∧ m.len = 0 ∧ m.isEmpty = true ∧ Count.checked m.count = some 0 ∧
      m.checkedLen = none := by
  decide

end Depthwise
