import Depthwise.Numerics.Cast
import Depthwise.Proofs.Exact.Equality
import Depthwise.Proofs.Exact.Powers
import Depthwise.Proofs.Kernel.Interchange

/-!
# Stored values and wider formats

Whatever a format makes of a value is one it stores, and so is every value its accumulator takes.
Stored values go unchanged into every format they are stored in exactly, and come back.

* A format widens to another that has its fractional bits or more and whose range holds its bounds
  (`Precision.WidensTo`).  Then nothing is rounded and nothing is out of range, so the modes of the
  two do not matter: storing is a shift (`Precision.WidensTo.store_eq`).
* The condition is what is needed (`Precision.widensTo_iff`).  One unit of a format that has more
  fractional bits is not a whole number of units of the other, and a bound is a value as well.
-/

namespace Depthwise.Precision

variable {p q : Precision} {x : Fixed}

/-- A unit of `p` is a whole number of units of `q`, and the range of `q` holds that of `p`. -/
structure WidensTo (p q : Precision) : Prop where
  frac_le : p.frac ≤ q.frac
  holds_min : q.Holds (p.minRaw * 2 ^ (q.frac - p.frac).toNat)
  holds_max : q.Holds (p.maxRaw * 2 ^ (q.frac - p.frac).toNat)

namespace WidensTo

theorem refl (p : Precision) : p.WidensTo p := by
  have ⟨hlo, hhi⟩ := p.holds_zero
  refine ⟨le_rfl, ?_, ?_⟩ <;> rw [sub_self, Int.toNat_zero, pow_zero, mul_one]
  · exact ⟨le_rfl, hlo.trans hhi⟩
  · exact ⟨hlo.trans hhi, le_rfl⟩

theorem holds_lifted (h : p.WidensTo q) (hx : p.Stores x) : q.Holds (x.lifted q.frac) := by
  obtain ⟨hfrac, hlo, hhi⟩ := hx
  have hpos : (0 : ℤ) ≤ 2 ^ (q.frac - p.frac).toNat := by positivity
  rw [Fixed.lifted, hfrac]
  exact ⟨h.holds_min.1.trans (mul_le_mul_of_nonneg_right hlo hpos),
    (mul_le_mul_of_nonneg_right hhi hpos).trans h.holds_max.2⟩

/-- The wider format shifts, whatever its modes. -/
theorem store_eq (h : p.WidensTo q) (hx : p.Stores x) : q.store x = ⟨x.lifted q.frac, q.frac⟩ := by
  have hfrac : x.frac ≤ q.frac := hx.1.trans_le h.frac_le
  rw [store_of_stores hx, quantize, x.toRat_mul_two_zpow, Fixed.scaled_of_le hfrac,
    Rounding.round_intCast]
  exact congrArg (Fixed.mk · q.frac) (confine_of_holds (h.holds_lifted hx))

theorem toRat_store (h : p.WidensTo q) (hx : p.Stores x) : (q.store x).toRat = x.toRat := by
  rw [h.store_eq hx]
  exact Fixed.toRat_lifted (hx.1.trans_le h.frac_le)

end WidensTo

/-- A value that another format stores exactly comes back. -/
theorem store_store_of_toRat_eq (hx : p.Stores x) (h : (q.store x).toRat = x.toRat) :
    p.store (q.store x) = x := by
  rw [store_of_stores (q.stores_store x), h, quantize_of_stores hx]

theorem store_store (p : Precision) (x : Fixed) : p.store (p.store x) = p.store x := by
  rw [store_of_stores (p.stores_store x), quantize_of_stores (p.stores_store x)]

/-! ### What is needed -/

theorem stores_minRaw (p : Precision) : p.Stores ⟨p.minRaw, p.frac⟩ :=
  have ⟨hlo, hhi⟩ := p.holds_zero
  ⟨rfl, le_rfl, hlo.trans hhi⟩

theorem stores_maxRaw (p : Precision) : p.Stores ⟨p.maxRaw, p.frac⟩ :=
  have ⟨hlo, hhi⟩ := p.holds_zero
  ⟨rfl, hlo.trans hhi, le_rfl⟩

/-- Every range has an odd bound. -/
theorem odd_bound (p : Precision) : ¬ (2 : ℤ) ∣ p.minRaw ∨ ¬ (2 : ℤ) ∣ p.maxRaw := by
  have hmax := p.maxRaw_eq
  have heven : (2 : ℤ) ∣ 2 ^ p.width := dvd_pow_self 2 (by have := p.width_pos; omega)
  omega

theorem frac_le_of_toRat_store (h : ∀ x, p.Stores x → (q.store x).toRat = x.toRat) :
    p.frac ≤ q.frac := by
  by_contra hlt
  rw [not_le] at hlt
  -- a multiple of what is more than one unit is even
  have heven {raw : ℤ} (hx : p.Stores ⟨raw, p.frac⟩) : 2 ∣ raw := by
    have hunits := (Fixed.toRat_eq_iff hlt.le le_rfl).mp (h _ hx)
    have hself : (Fixed.mk raw p.frac).lifted p.frac = raw := Fixed.lifted_self _
    rw [hself] at hunits
    exact hunits ▸ Fixed.two_dvd_lifted hlt
  rcases p.odd_bound with hodd | hodd
  · exact hodd (heven p.stores_minRaw)
  · exact hodd (heven p.stores_maxRaw)

/-- **A format widens to those in which each of its values is stored exactly.** -/
theorem widensTo_iff : p.WidensTo q ↔ ∀ x, p.Stores x → (q.store x).toRat = x.toRat := by
  refine ⟨fun h x hx => h.toRat_store hx, fun h => ?_⟩
  have hfrac := frac_le_of_toRat_store h
  have hholds {raw : ℤ} (hx : p.Stores ⟨raw, p.frac⟩) :
      q.Holds (raw * 2 ^ (q.frac - p.frac).toNat) := by
    have hunits := (Fixed.toRat_eq_iff le_rfl hfrac).mp (h _ hx)
    have hstored : q.Holds (q.store ⟨raw, p.frac⟩).raw := (q.stores_store _).2
    rwa [← Fixed.lifted_self, hunits] at hstored
  exact ⟨hfrac, hholds p.stores_minRaw, hholds p.stores_maxRaw⟩

/-- **Stored values stay stored, and widening loses nothing.**  What a format makes of a value, of a
bit pattern or of an integer, as a cast or at any place of a run of its accumulator, is a value it
stores.  The formats in which each of these is stored exactly are those it widens to, and what went
into one of them comes back as it was.  A format widens to itself. -/
theorem stores_and_widens (p : Precision) :
    ((∀ x, p.Stores (p.store x)) ∧ (∀ raw, p.Stores (p.ofRaw raw)) ∧
        (∀ n, p.Stores (p.ofInt n)) ∧
        (∃ cast : Fixed → Fixed, (Cast.Kind.precision p).typed? .fixed = some ⟨.fixed, cast⟩ ∧
          ∀ x, p.Stores (cast x)) ∧
        ∃ acc : Accumulator Fixed Fixed Fixed,
          (Accumulator.Kind.precision p).typed? .fixed .fixed = some ⟨.fixed, acc⟩ ∧
            ∀ bias products, p.Stores (products.foldl acc.accumulate (acc.seed bias)) ∧
              ∀ s ∈ acc.run bias products, p.Stores s) ∧
      (∀ q : Precision,
        (p.WidensTo q ↔ ∀ x, p.Stores x → (q.store x).toRat = x.toRat) ∧
          (p.WidensTo q → ∀ x, p.Stores x → p.store (q.store x) = x)) ∧
      p.WidensTo p ∧ ∀ x, p.store (p.store x) = p.store x := by
  have hback {q : Precision} (h : p.WidensTo q) (x : Fixed) (hx : p.Stores x) :
      p.store (q.store x) = x := store_store_of_toRat_eq hx (h.toRat_store hx)
  have hrun (bias : Fixed) (products : List Fixed) :
      p.Stores (products.foldl (Accumulator.stored p).accumulate (p.store bias)) ∧
        ∀ s ∈ (Accumulator.stored p).run bias products, p.Stores s :=
    ⟨Accumulator.stores_of_reaches ((Accumulator.Reaches.seed bias).foldl products),
      fun _ hs => Accumulator.stores_of_reaches (Accumulator.reaches_of_mem_run hs)⟩
  exact ⟨⟨p.stores_store, p.stores_ofRaw, fun n => p.stores_store _,
      ⟨p.store, rfl, p.stores_store⟩, ⟨Accumulator.stored p, rfl, hrun⟩⟩,
    fun q => ⟨widensTo_iff, hback⟩, .refl p, p.store_store⟩

/-- The even numbers from `0` to `62`, wrapping. -/
def evens : Precision where
  width := 5
  integer := 6
  isSigned := false
  rounding := .down
  overflow := .wrap
  width_pos := by decide
  width_le := by decide
  frac_ge := by decide
  frac_le := by decide

/-- They widen to bytes, though bytes are signed, and come back. -/
theorem evens_widen_to_bytes :
    evens.WidensTo bytes ∧ evens.Stores ⟨11, -1⟩ ∧ bytes.store ⟨11, -1⟩ = ⟨22, 0⟩ ∧
      (bytes.store ⟨11, -1⟩).toRat = (Fixed.mk 11 (-1)).toRat ∧
      evens.store (bytes.store ⟨11, -1⟩) = ⟨11, -1⟩ ∧
      (∀ s ∈ (Accumulator.stored evens).run ⟨3, 0⟩ [⟨-5, 0⟩, ⟨1, -7⟩], evens.Stores s) := by
  have hwidens : evens.WidensTo bytes := ⟨by decide, by decide, by decide⟩
  have hx : evens.Stores ⟨11, -1⟩ := by decide
  obtain ⟨⟨-, -, -, -, acc, hacc, hrun⟩, hwidening, -⟩ := stores_and_widens evens
  have hstored : acc = Accumulator.stored evens := by cases hacc; rfl
  obtain ⟨hexact, hback⟩ := hwidening bytes
  exact ⟨hwidens, hx, by decide, hexact.mp hwidens _ hx, hback hwidens _ hx,
    hstored ▸ (hrun _ _).2⟩

end Depthwise.Precision
