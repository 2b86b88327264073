import Depthwise.Proofs.Geometry.Consistent
import Depthwise.Proofs.Kernel.Words
import Depthwise.Unroll
import Mathlib.Algebra.BigOperators.Ring.List
import Mathlib.Algebra.Order.Ring.Nat

/-!
# What a plan counts

A plan counts the taps of rows and of columns on their own and multiplies (`UnrollPlan.make`); the
kernel visits them nested in each other, for every replica anew.  Its products are counted by
running it with products that carry the call they come from (`Config.counting`): a slot then ends
with the number of its calls beside its value.

* `slot_counting`: beside the value of a slot stands the number of taps of its window.
* `sum_length_taps`, `max?_length_taps`: over all replicas, the sum and the maximum of these are
  products of those of the rows and of the columns.
* `checkedMake_eq_some`: a plan whose tap totals fit is made within machine words.
* `plan_counts`: so a plan counts the slots and the products of the kernel, up to saturation.
-/

namespace Depthwise

/-! ### The plan in machine words -/

namespace Span

/-- The number of taps of a window, every step being checked. -/
def checkedTapCount (s : Span) (o : Nat) : Option Nat := do
  let cells ← (List.range s.filt).mapM (s.checkedTap o)
  Count.checked (cells.filterMap id).length

/-- The number of taps of each window, every step being checked. -/
def checkedTapCounts (s : Span) : Option (List Nat) := (List.range s.out).mapM s.checkedTapCount

theorem length_taps_le (s : Span) (o : Nat) : (s.taps o).length ≤ s.filt := by
  refine Nat.le_trans (List.length_filterMap_le _ _) ?_
  rw [List.length_finRange]

theorem filterMap_tap? (s : Span) (o : Nat) :
    (List.range s.filt).filterMap (fun k => (s.tap? o k).map Fin.val) =
      (s.taps o).map (fun t => (t.2 : Nat)) := by
  rw [taps, List.map_filterMap, ← List.map_coe_finRange_eq_range, List.filterMap_map]
  refine List.filterMap_congr fun k _ => ?_
  cases h : s.tap? o k <;> simp [h]

theorem checkedTapCount_eq_some {s : Span} {axis : Axis} (h : s.check axis = .ok ()) {o : Nat}
    (ho : o < s.out) : s.checkedTapCount o = some (s.taps o).length := by
  have hcells : (List.range s.filt).mapM (s.checkedTap o) =
      some ((List.range s.filt).map fun k => (s.tap? o k).map Fin.val) :=
    mapM_eq_some_map fun k hk => checkedTap_eq_some h ho (List.mem_range.mp hk)
  have hfits : (s.taps o).length ≤ Count.limit :=
    Nat.le_trans (s.length_taps_le o) (Nat.le_trans (Nat.le_add_left _ _) (reach_le h))
  rw [checkedTapCount, hcells]
  simp only [Option.bind_eq_bind, Option.bind_some, List.filterMap_map, Function.id_comp,
    filterMap_tap?, List.length_map]
  exact Count.checked_eq_some.mpr ⟨hfits, rfl⟩

theorem checkedTapCounts_eq_some {s : Span} {axis : Axis} (h : s.check axis = .ok ()) :
    s.checkedTapCounts = some s.tapCounts :=
  mapM_eq_some_map fun _ ho => checkedTapCount_eq_some h (List.mem_range.mp ho)

end Span

/-- The plan of a geometry, every step being checked.  A partial sum is no larger than the whole
one, so that one check is enough for each. -/
def UnrollPlan.checkedMake (g : Geometry) (orderSensitive : Bool) : Option UnrollPlan := do
  let rows ← g.rows.checkedTapCounts
  let cols ← g.cols.checkedTapCounts
  let rowTaps ← Count.checked rows.sum
  let colTaps ← Count.checked cols.sum
  return {
    replicas := g.outputMap.len
    taps := Count.mulSat (Count.mulSat rowTaps colTaps) g.filters
    maxTaps := Count.mulSat (rows.foldl max 0) (cols.foldl max 0)
    reduction := if orderSensitive then .ordered else .tree }

theorem UnrollPlan.checkedMake_eq_some {g : Geometry} (hv : g.validate = .ok ())
    (hrows : g.rows.tapCounts.sum ≤ Count.limit) (hcols : g.cols.tapCounts.sum ≤ Count.limit)
    (orderSensitive : Bool) : checkedMake g orderSensitive = some (make g orderSensitive) := by
  obtain ⟨-, -, -, hrow, hcol, -⟩ := Geometry.validate_eq_ok.mp hv
  rw [checkedMake, Span.checkedTapCounts_eq_some hrow, Span.checkedTapCounts_eq_some hcol]
  simp only [Option.bind_eq_bind, Option.bind_some, Count.checked_eq_some.mpr ⟨hrows, rfl⟩,
    Count.checked_eq_some.mpr ⟨hcols, rfl⟩]
  rfl

/-! ### Taps of rows and taps of columns -/

/-- A sum over the items of the lists of a list. -/
theorem sum_map_flatMap {α β : Type} (f : α → List β) (n : β → Nat) (l : List α) :
    ((l.flatMap f).map n).sum = (l.map fun a => ((f a).map n).sum).sum := by
  rw [List.map_flatMap, List.flatMap_def, List.sum_flatten, List.map_map]
  rfl

/-- The greatest number of taps is that of some window. -/
theorem Span.max?_tapCounts {s : Span} (ho : 0 < s.out) :
    s.tapCounts.max? = some (s.tapCounts.foldl max 0) := by
  have hne : s.tapCounts.max? ≠ none := by
    rw [Ne, List.max?_eq_none_iff, ← List.length_eq_zero_iff, tapCounts, List.length_map,
      List.length_range]
    exact Nat.ne_of_gt ho
  obtain ⟨most, hmost⟩ := Option.ne_none_iff_exists'.mp hne
  rw [List.foldl_max, hmost, Option.getD_some, Nat.zero_max]

namespace Geometry

variable {g : Geometry}

/-- A tap is a row tap with a column tap. -/
theorem length_taps (h w : Nat) :
    (g.taps h w).length = (g.rows.taps h).length * (g.cols.taps w).length := by
  rw [taps, List.length_flatMap]
  simp only [List.length_map, List.map_const', List.sum_replicate_nat]

/-- All taps of all replicas. -/
theorem sum_length_taps (hv : g.validate = .ok ()) :
    (g.replicas.map fun r => (g.taps r.h r.w).length).sum =
      g.rows.tapCounts.sum * g.cols.tapCounts.sum * g.filters := by
  have hrows := map_finRange (fun o => (g.rows.taps o).length) g.rows.out
  have hcols := map_finRange (fun o => (g.cols.taps o).length) g.cols.out
  calc (g.replicas.map fun r => (g.taps r.h r.w).length).sum
    _ = ((List.finRange g.rows.out).map fun h : Fin g.rows.out =>
          ((List.finRange g.cols.out).map fun w : Fin g.cols.out => g.channels *
            (g.depthMultiplier * ((g.rows.taps h).length * (g.cols.taps w).length))).sum).sum := by
      simp only [replicas, sum_map_flatMap, List.map_map, Function.comp_def, length_taps,
        List.map_const', List.length_finRange, List.sum_replicate_nat]
    _ = g.channels * (g.depthMultiplier * (g.rows.tapCounts.sum * g.cols.tapCounts.sum)) := by
      simp only [List.sum_map_mul_left, List.sum_map_mul_right, hrows, hcols]
      rfl
    _ = g.rows.tapCounts.sum * g.cols.tapCounts.sum * g.filters := by
      rw [← Nat.mul_assoc, filters_eq hv, Nat.mul_comm]

/-- The most taps of one replica. -/
theorem max?_length_taps (hv : g.validate = .ok ()) :
    (g.replicas.map fun r => (g.taps r.h r.w).length).max? =
      some (g.rows.tapCounts.foldl max 0 * g.cols.tapCounts.foldl max 0) := by
  obtain ⟨hh, hw⟩ := out_pos hv
  have hfilters := (validate_eq_ok_iff.mp hv).filters_pos
  rw [← filters_eq hv] at hfilters
  obtain ⟨hrow, hrows⟩ := List.max?_eq_some_iff.mp (Span.max?_tapCounts hh)
  obtain ⟨hcol, hcols⟩ := List.max?_eq_some_iff.mp (Span.max?_tapCounts hw)
  refine List.max?_eq_some_iff.mpr ⟨?_, ?_⟩
  · -- the widest row of windows and the widest column of windows meet
    obtain ⟨h, hmem, hh⟩ := List.mem_map.mp hrow
    obtain ⟨w, hmem', hw⟩ := List.mem_map.mp hcol
    let r : Replica g := ⟨⟨h, List.mem_range.mp hmem⟩, ⟨w, List.mem_range.mp hmem'⟩,
      ⟨0, Nat.pos_of_mul_pos_right hfilters⟩, ⟨0, Nat.pos_of_mul_pos_left hfilters⟩⟩
    exact List.mem_map.mpr ⟨r, mem_replicas r, by rw [length_taps, hh, hw]⟩
  · intro n hn
    obtain ⟨r, -, rfl⟩ := List.mem_map.mp hn
    rw [length_taps]
    exact Nat.mul_le_mul (hrows _ (List.mem_map.mpr ⟨r.h, List.mem_range.mpr r.h.isLt, rfl⟩))
      (hcols _ (List.mem_map.mpr ⟨r.w, List.mem_range.mpr r.w.isLt, rfl⟩))

end Geometry

/-! ### The products of a run -/

namespace Config

variable {D W P B A O : Type} (cfg : Config D W P B A O)

/-- The configuration with products that carry the call they come from; a slot adds these up. -/
def counting : Config D W (P × Nat) B (A × Nat) O where
  geometry := cfg.geometry
  product d v := (cfg.product d v, 1)
  accumulator :=
    { seed := fun b => (cfg.accumulator.seed b, 0)
      accumulate := fun a p => (cfg.accumulator.accumulate a.1 p.1, a.2 + p.2)
      orderSensitive := cfg.accumulator.orderSensitive }
  cast a := cfg.cast a.1
  valid := cfg.valid

/-- A slot with one call for each of its products. -/
theorem foldl_counting {α : Type} (product : α → P) (l : List α) (a : A) (n : Nat) :
    (l.map fun t => (product t, 1)).foldl cfg.counting.accumulator.accumulate (a, n) =
      ((l.map product).foldl cfg.accumulator.accumulate a, n + l.length) := by
  induction l generalizing a n with
  | nil => rfl
  | cons t l ih =>
      rw [List.map_cons, List.foldl_cons, List.map_cons, List.foldl_cons, List.length_cons,
        Nat.add_comm l.length, ← Nat.add_assoc]
      exact ih (cfg.accumulator.accumulate a (product t)) (n + 1)

/-- **Beside the value of a slot stands the number of its taps.** -/
theorem slot_counting (x : Operands cfg.geometry D W B) (r : Replica cfg.geometry) :
    cfg.counting.slot x r = (cfg.slot x r, (cfg.geometry.taps r.h r.w).length) := by
  have h := cfg.foldl_counting (fun t : Tap cfg.geometry =>
    cfg.product (x.sample t.row t.col r.c) (x.weight r.dm t.kh t.kw r.c))
    (cfg.geometry.taps r.h r.w) (cfg.accumulator.seed (x.bias r.c r.dm)) 0
  rwa [Nat.zero_add] at h

variable {input : Array D} {weights : Array W} {biases : Array B} {output : Array O}
  (lens : cfg.geometry.checkOperands input.size weights.size biases.size output.size = .ok ())

include lens

/-- **The plan counts what the kernel does.**  If the tap totals of the rows and of the columns fit,
the plan is made without leaving the machine words.  Its replicas are as many as the slots the
kernel pushes, its taps as many as the products of all slots, and its greatest reduction has as many
terms as the slot with the most products, the last two as far as they fit. -/
theorem plan_counts (hrows : cfg.geometry.rows.tapCounts.sum ≤ Count.limit)
    (hcols : cfg.geometry.cols.tapCounts.sum ≤ Count.limit) :
    let g := cfg.geometry
    let plan := UnrollPlan.make g cfg.accumulator.orderSensitive
    UnrollPlan.checkedMake g cfg.accumulator.orderSensitive = some plan ∧
      ∃ slots : List (A × Nat),
        cfg.counting.checkedSlots input weights biases = some slots ∧
        (cfg.compute input weights biases output).output =
          (slots.map fun s => cfg.cast s.1).toArray ∧
        plan.replicas = slots.length ∧ plan.replicas = g.rows.out * g.cols.out * g.filters ∧
        plan.taps = min (slots.map Prod.snd).sum Count.limit ∧
        ∃ most, (slots.map Prod.snd).max? = some most ∧ plan.maxTaps = min most Count.limit := by
  let x := cfg.operands lens
  have hslots : cfg.counting.checkedSlots input weights biases =
      some (cfg.geometry.replicas.map fun r =>
        (cfg.slot x r, (cfg.geometry.taps r.h r.w).length)) := by
    simp only [← cfg.slot_counting x]
    exact cfg.counting.checkedSlots_eq_some x
  refine ⟨UnrollPlan.checkedMake_eq_some cfg.valid hrows hcols _, _, hslots, ?_⟩
  have hreplicas := UnrollPlan.replicas_make cfg.valid cfg.accumulator.orderSensitive
  simp only [List.map_map, Function.comp_def, List.length_map]
  refine ⟨?_, ?_, hreplicas, ?_, _, Geometry.max?_length_taps cfg.valid, rfl⟩
  · rw [output_compute cfg lens]
    rfl
  · rw [hreplicas, Geometry.length_replicas cfg.valid]
  · rw [Geometry.sum_length_taps cfg.valid]
    exact Count.mulSat_min _ _

end Config

/-- The layer with its windows far apart: no cell of the first row of windows lies in the input, and
in the second row the first window has a column in the padding. -/
theorem plan_counts_farApart :
    Geometry.farApart.checkOperands 12 16 4 24 = .ok () ∧
      Geometry.farApart.rows.tapCounts.sum ≤ Count.limit ∧
      Geometry.farApart.cols.tapCounts.sum ≤ Count.limit ∧
      ∃ slots, Config.farApart.counting.checkedSlots (countUp 12) (countUp 16) (countUp 4) =
          some slots ∧
        slots.length = 24 ∧ (slots.map Prod.snd).sum = (0 + 2) * (1 + 2 + 2) * 4 ∧
        (slots.map Prod.snd).max? = some (2 * 2) := by
  have lens : Geometry.farApart.checkOperands (countUp 12).size (countUp 16).size (countUp 4).size
      (countUp 24).size = .ok () := rfl
  have hrows : Geometry.farApart.rows.tapCounts.sum ≤ Count.limit := by decide +kernel
  have hcols : Geometry.farApart.cols.tapCounts.sum ≤ Count.limit := by decide +kernel
  have hplan : UnrollPlan.make Geometry.farApart true = ⟨24, 40, 4, .ordered⟩ := by decide +kernel
  obtain ⟨-, slots, hslots, -, hreplicas, -, htaps, most, hmost, hmaxTaps⟩ :=
    Config.farApart.plan_counts lens hrows hcols
  have hlimit : 40 < Count.limit := by decide
  rw [show UnrollPlan.make Config.farApart.geometry Config.farApart.accumulator.orderSensitive = _
    from hplan] at hreplicas htaps hmaxTaps
  dsimp only at hreplicas htaps hmaxTaps
  have hsum : (slots.map Prod.snd).sum = 40 := by omega
  obtain rfl : most = 4 := by omega
  exact ⟨lens, hrows, hcols, slots, hslots, hreplicas.symm, hsum, hmost⟩

end Depthwise
