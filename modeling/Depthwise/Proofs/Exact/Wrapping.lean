import Depthwise.Numerics.Accumulator
import Depthwise.Proofs.Exact.Arithmetic
import Mathlib.Algebra.BigOperators.Group.List.Basic

/-!
# Sums that wrap

A wrapping accumulator keeps the low bits of every partial sum.  Low bits are those of the sum of
the low bits, so what wraps on the way does not show at the end.  What may show is the rounding: a
partial sum is rounded as a whole, and not what is added to it.

* Some modes round `n + y` to `n` and what `y` is rounded to, for every integer `n`
  (`Rounding.Shifts`).  They are those that go down, or to the nearest with ties always up or always
  down (`Rounding.shifts_iff`); the others look at the sign or the parity of the whole sum.
* A term with no more fractional bits than the accumulator is a whole number of its units, and no
  mode rounds it.

In both cases the term is rounded by itself (`Precision.RoundsApart`), a step adds the rounded term
(`store_add_modEq`), and a run of any length holds the low bits of the sum of the rounded terms, in
whatever order they come (`wrapping_slot_iff`).
-/

namespace Depthwise

namespace Rounding

/-- An integer that is added stays out of the rounding. -/
def Shifts (mode : Rounding) : Prop := ∀ (n : ℤ) (y : ℚ), mode.round (n + y) = n + mode.round y

theorem shifts_iff {mode : Rounding} :
    mode.Shifts ↔ mode = down ∨ mode = nearestUp ∨ mode = nearestDown := by
  constructor
  · intro h
    -- the other modes bring both `1 / 2` and `-1 / 2` to zero, or both away from it
    have hhalf := h (-1) (1 / 2)
    cases mode with
    | down => exact .inl rfl
    | nearestUp => exact .inr (.inl rfl)
    | nearestDown => exact .inr (.inr rfl)
    | towardZero | nearestTowardZero | nearestAway | nearestEven =>
        norm_num [round, Int.even_iff] at hhalf
  · rintro (rfl | rfl | rfl) n y <;> simp only [round]
    · rw [Int.floor_intCast_add]
    · rw [add_assoc, Int.floor_intCast_add]
    · rw [add_sub_assoc, Int.ceil_intCast_add]

end Rounding

theorem Fixed.scaled_self (x : Fixed) : x.scaled x.frac = x.raw := by
  rw [scaled, sub_self, zpow_zero, mul_one]

namespace Precision

variable {p : Precision}

/-! ### One step -/

/-- The number `v` in units of the last stored bit, rounded. -/
def units (p : Precision) (v : ℚ) : ℤ := p.rounding.round (v * 2 ^ p.frac)

/-- The term `x` is rounded by itself, whatever whole number of units it is added to. -/
def RoundsApart (p : Precision) (x : Fixed) : Prop :=
  ∀ n : ℤ, p.rounding.round (n + x.scaled p.frac) = n + p.units x.toRat

theorem roundsApart_of_shifts (h : p.rounding.Shifts) (x : Fixed) : p.RoundsApart x := by
  intro n
  rw [h, units, x.toRat_mul_two_zpow]

theorem roundsApart_of_frac_le {x : Fixed} (h : x.frac ≤ p.frac) : p.RoundsApart x := by
  intro n
  rw [units, x.toRat_mul_two_zpow, Fixed.scaled_of_le h, ← Int.cast_add, Rounding.round_intCast,
    Rounding.round_intCast]

/-- A step adds the rounded term, up to what wraps. -/
theorem store_add_modEq (hwrap : p.overflow = .wrap) {s x : Fixed} (hs : p.Stores s)
    (hx : p.Admits x) (hapart : p.RoundsApart x) :
    (p.store (s + x)).raw ≡ s.raw + p.units x.toRat [ZMOD 2 ^ p.width] := by
  have hsum : (s.toRat + x.toRat) * 2 ^ p.frac = s.raw + x.scaled p.frac := by
    rw [add_mul, x.toRat_mul_two_zpow, s.toRat_mul_two_zpow, ← hs.1, s.scaled_self]
  rw [store_add hs hx, quantize, hsum, ← hapart]
  exact confine_modEq hwrap _

/-! ### Runs -/

theorem foldl_store_modEq (hwrap : p.overflow = .wrap) {xs : List Fixed}
    (h : ∀ x ∈ xs, p.Admits x ∧ p.RoundsApart x) {s : Fixed} (hs : p.Stores s) :
    p.Stores (xs.foldl (fun s x => p.store (s + x)) s) ∧
      (xs.foldl (fun s x => p.store (s + x)) s).raw ≡
        s.raw + (xs.map fun x => p.units x.toRat).sum [ZMOD 2 ^ p.width] := by
  induction xs generalizing s with
  | nil => exact ⟨hs, by rw [List.map_nil, List.sum_nil, add_zero]; rfl⟩
  | cons x xs ih =>
      obtain ⟨hx, hapart⟩ := h x List.mem_cons_self
      obtain ⟨hstores, hrun⟩ := ih (fun y hy => h y (List.mem_cons_of_mem x hy))
        (p.stores_store (s + x))
      have hstep := (store_add_modEq hwrap hs hx hapart).add_right
        (xs.map fun x => p.units x.toRat).sum
      refine ⟨hstores, hrun.trans ?_⟩
      rwa [List.map_cons, List.sum_cons, ← add_assoc]

/-- The seed and the products of stored values, each rounded by itself. -/
theorem wrapping_slot_modEq {data weight accum bias : Precision} (hwrap : accum.overflow = .wrap)
    (room : Headroom data weight accum)
    (hapart : accum.rounding.Shifts ∨ data.frac + weight.frac ≤ accum.frac) {b : Fixed}
    (hb : bias.Stores b) {terms : List (Fixed × Fixed)}
    (hterms : ∀ t ∈ terms, data.Stores t.1 ∧ weight.Stores t.2) :
    let slot := (terms.map fun t => t.1 * t.2).foldl (Accumulator.stored accum).accumulate
      ((Accumulator.stored accum).seed b)
    accum.Stores slot ∧
      slot.raw ≡ accum.units b.toRat +
        (terms.map fun t => accum.units (t.1.toRat * t.2.toRat)).sum [ZMOD 2 ^ accum.width] := by
  have hadmits : ∀ x ∈ terms.map fun t => t.1 * t.2, accum.Admits x ∧ accum.RoundsApart x := by
    intro x hx
    obtain ⟨t, ht, rfl⟩ := List.mem_map.mp hx
    obtain ⟨hd, hw⟩ := hterms t ht
    refine ⟨(admits_mul room hd hw).1, hapart.elim (fun h => roundsApart_of_shifts h _) ?_⟩
    intro hle
    exact roundsApart_of_frac_le ((congrArg₂ (· + ·) hd.1 hw.1).trans_le hle)
  have hunits : (terms.map fun t => t.1 * t.2).map (fun x => accum.units x.toRat) =
      terms.map fun t => accum.units (t.1.toRat * t.2.toRat) := by
    rw [List.map_map]
    refine List.map_congr_left fun t ht => ?_
    obtain ⟨hd, hw⟩ := hterms t ht
    exact congrArg accum.units (admits_mul room hd hw).2
  have hseed : (accum.store b).raw ≡ accum.units b.toRat [ZMOD 2 ^ accum.width] := by
    rw [store_of_stores hb]
    exact confine_modEq hwrap _
  obtain ⟨hstores, hrun⟩ := foldl_store_modEq hwrap hadmits (accum.stores_store b)
  rw [hunits] at hrun
  exact ⟨hstores, hrun.trans (hseed.add_right _)⟩

/-- **A wrapping accumulator holds one modular sum.**  Let no format have its last bit before the
point.  If the accumulator goes down, or to the nearest with ties always up or always down, or if it
has all the fractional bits of the products, then a run of products of stored values, of any length
and seeded with a stored bias, ends with the one mantissa of the range that is congruent to the sum
of the bias and the products, each rounded by itself.  What wraps on the way does not matter, and
neither does the order of the products. -/
theorem wrapping_slot_iff {data weight accum bias : Precision} (hwrap : accum.overflow = .wrap)
    (hdata : 0 ≤ data.frac) (hweight : 0 ≤ weight.frac) (haccum : 0 ≤ accum.frac)
    (hmode : accum.rounding = .down ∨ accum.rounding = .nearestUp ∨
      accum.rounding = .nearestDown ∨ data.frac + weight.frac ≤ accum.frac)
    {b : Fixed} (hb : bias.Stores b) {terms : List (Fixed × Fixed)}
    (hterms : ∀ t ∈ terms, data.Stores t.1 ∧ weight.Stores t.2) :
    let slot := fun ts : List (Fixed × Fixed) =>
      (ts.map fun t => t.1 * t.2).foldl (Accumulator.stored accum).accumulate
        ((Accumulator.stored accum).seed b)
    (slot terms).frac = accum.frac ∧
      (∀ m : ℤ, (slot terms).raw = m ↔ accum.Holds m ∧
        m ≡ accum.rounding.round (b.toRat * 2 ^ accum.frac) +
          (terms.map fun t =>
            accum.rounding.round (t.1.toRat * t.2.toRat * 2 ^ accum.frac)).sum
          [ZMOD 2 ^ accum.width]) ∧
      ∀ terms', terms'.Perm terms → slot terms' = slot terms := by
  have room := headroom_of_frac_nonneg hdata hweight haccum
  have hapart : accum.rounding.Shifts ∨ data.frac + weight.frac ≤ accum.frac := by
    rw [Rounding.shifts_iff, or_assoc, or_assoc]
    exact hmode
  obtain ⟨⟨hfrac, hholds⟩, hmod⟩ := wrapping_slot_modEq hwrap room hapart hb hterms
  refine ⟨hfrac, fun m => ⟨?_, ?_⟩, fun terms' hperm => ?_⟩
  · rintro rfl
    exact ⟨hholds, hmod⟩
  · rintro ⟨hm, hm'⟩
    exact eq_of_modEq hholds hm (hmod.trans hm'.symm)
  · obtain ⟨⟨hfrac', hholds'⟩, hmod'⟩ := wrapping_slot_modEq hwrap room hapart hb
      fun t ht => hterms t (hperm.subset ht)
    rw [(hperm.map _).sum_eq] at hmod'
    exact congrArg₂ Fixed.mk (eq_of_modEq hholds' hholds (hmod'.trans hmod.symm))
      (hfrac'.trans hfrac.symm)

/-- The halves from `-4` to `3.5` that wrap, to the nearest with ties up. -/
def wrappingHalves : Precision :=
  (symmetricHalves.withRounding .nearestUp).withOverflow .wrap

/-- To `1.5` are added `12.25`, which is rounded up to `12.5` and wraps to `-2`, then `-14` and
`0.25`.  The low bits of the sum are those of one half, and so they are when the products come in
another order. -/
theorem wrapping_slot_halves :
    wrappingHalves.overflow = .wrap ∧ wrappingHalves.rounding = .nearestUp ∧
      0 ≤ symmetricHalves.frac ∧ 0 ≤ wrappingHalves.frac ∧ symmetricHalves.Stores ⟨3, 1⟩ ∧
      (∀ t ∈ [(Fixed.mk 7 1, Fixed.mk 7 1), (⟨-8, 1⟩, ⟨7, 1⟩), (⟨1, 1⟩, ⟨1, 1⟩)],
        symmetricHalves.Stores t.1 ∧ symmetricHalves.Stores t.2) ∧
      [Fixed.mk 7 1 * ⟨7, 1⟩, ⟨-8, 1⟩ * ⟨7, 1⟩, ⟨1, 1⟩ * ⟨1, 1⟩].foldl
        (Accumulator.stored wrappingHalves).accumulate (wrappingHalves.store ⟨3, 1⟩) = ⟨1, 1⟩ ∧
      [Fixed.mk 1 1 * ⟨1, 1⟩, ⟨7, 1⟩ * ⟨7, 1⟩, ⟨-8, 1⟩ * ⟨7, 1⟩].foldl
        (Accumulator.stored wrappingHalves).accumulate (wrappingHalves.store ⟨3, 1⟩) = ⟨1, 1⟩ := by
  have hterms : ∀ t ∈ [(Fixed.mk 7 1, Fixed.mk 7 1), (⟨-8, 1⟩, ⟨7, 1⟩), (⟨1, 1⟩, ⟨1, 1⟩)],
      symmetricHalves.Stores t.1 ∧ symmetricHalves.Stores t.2 := by decide
  have hbias : symmetricHalves.Stores ⟨3, 1⟩ := by decide
  have hwrap : wrappingHalves.overflow = .wrap := rfl
  obtain ⟨hfrac, hraw, hperm⟩ := wrapping_slot_iff hwrap (by decide) (by decide) (by decide)
    (.inr (.inl rfl)) hbias hterms
  -- in halves, `3 + 25 - 28 + 1 = 1`
  have htotal : wrappingHalves.rounding.round ((Fixed.mk 3 1).toRat * 2 ^ wrappingHalves.frac) +
      ([(Fixed.mk 7 1, Fixed.mk 7 1), (⟨-8, 1⟩, ⟨7, 1⟩), (⟨1, 1⟩, ⟨1, 1⟩)].map fun t =>
        wrappingHalves.rounding.round (t.1.toRat * t.2.toRat * 2 ^ wrappingHalves.frac)).sum =
      1 := by
    norm_num [Fixed.toRat, wrappingHalves, symmetricHalves, withRounding, withOverflow, frac,
      Rounding.round]
  have hslot := (hraw 1).mpr ⟨by decide, by rw [htotal]⟩
  have hrotated := hperm [(⟨1, 1⟩, ⟨1, 1⟩), (⟨7, 1⟩, ⟨7, 1⟩), (⟨-8, 1⟩, ⟨7, 1⟩)] (by decide)
  have hone := congrArg₂ Fixed.mk hslot hfrac
  exact ⟨hwrap, rfl, by decide, by decide, hbias, hterms, hone, hrotated.trans hone⟩

end Precision

end Depthwise
