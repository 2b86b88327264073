import Depthwise.Proofs.Kernel.Output
import Depthwise.Unroll
import Mathlib.Algebra.BigOperators.Group.List.Basic
import Mathlib.Data.List.Perm.Subperm
import Mathlib.Logic.Function.Basic

/-!
# Replicas in any order

Every iteration of nested loops sets a counter for each of them (`Geometry.iterations`).  An
iteration of the parallel loops of a plan finishes one output element from the three buffers it
reads and stores it at the place of its replica (`Config.iterate?`); it does not look at the
buffer it writes.

* `length_iterations`: there are as many iterations as the extents of the loops say.
* `map_place_iterations`: those of the parallel loops have every place of the output buffer once.
* `foldlM_iterate?`: a run over some iterations settles their places, whatever their order is.
* `compute_eq_foldlM_iterate?`: a run over all of them leaves what the kernel leaves.
-/

namespace Depthwise

/-- How often a loop runs. -/
def LoopDim.extent (g : Geometry) : LoopDim → Nat
  | depthMultiplier => g.depthMultiplier
  | outRow => g.rows.out
  | outCol => g.cols.out
  | channel => g.channels
  | filterRow => g.rows.filt
  | filterCol => g.cols.filt

/-- A counter for each loop; those of loops that do not run stand at zero. -/
abbrev Counters := LoopDim → Nat

namespace Geometry

/-- The iterations of nested loops, the outer loop first. -/
def iterations (g : Geometry) : List LoopDim → List Counters
  | [] => [fun _ => 0]
  | d :: ds => (List.range (d.extent g)).flatMap fun i =>
      (g.iterations ds).map fun t => Function.update t d i

/-- The place of the replica of an iteration. -/
def place (g : Geometry) (t : Counters) : Nat :=
  g.outputMap.index (t .outRow) (t .outCol)
    (g.filterBank.channel (t .channel) (t .depthMultiplier))

variable {g : Geometry}

/-- The number of iterations is the product of the extents. -/
theorem length_iterations (ds : List LoopDim) :
    (g.iterations ds).length = (ds.map (LoopDim.extent g)).prod := by
  induction ds with
  | nil => rfl
  | cons d ds ih =>
      simp only [iterations, List.length_flatMap, List.length_map, ih, List.map_const',
        List.length_range, List.sum_replicate_nat, List.map_cons, List.prod_cons]

/-- Every counter stays below the extent of its loop. -/
theorem lt_extent_of_mem {ds : List LoopDim} {t : Counters} (ht : t ∈ g.iterations ds)
    {d : LoopDim} (hd : d ∈ ds) : t d < d.extent g := by
  induction ds generalizing t with
  | nil => cases hd
  | cons e ds ih =>
      obtain ⟨i, hi, ht⟩ := List.mem_flatMap.mp ht
      obtain ⟨s, hs, rfl⟩ := List.mem_map.mp ht
      by_cases he : d = e
      · subst he
        rw [Function.update_self]
        exact List.mem_range.mp hi
      · rw [Function.update_of_ne he]
        exact ih hs ((List.mem_cons.mp hd).resolve_left he)

/-- All counters below the extents come up. -/
theorem exists_mem_iterations {ds : List LoopDim} {t : Counters}
    (ht : ∀ d ∈ ds, t d < d.extent g) : ∃ s ∈ g.iterations ds, ∀ d ∈ ds, s d = t d := by
  induction ds with
  | nil => exact ⟨_, List.mem_singleton_self _, fun d hd => nomatch hd⟩
  | cons e ds ih =>
      obtain ⟨s, hs, heq⟩ := ih fun d hd => ht d (List.mem_cons_of_mem e hd)
      have he : t e ∈ List.range (e.extent g) := List.mem_range.mpr (ht e List.mem_cons_self)
      refine ⟨Function.update s e (t e),
        List.mem_flatMap.mpr ⟨t e, he, List.mem_map.mpr ⟨s, hs, rfl⟩⟩, fun d hd => ?_⟩
      by_cases hde : d = e
      · rw [hde, Function.update_self]
      · rw [Function.update_of_ne hde, heq d ((List.mem_cons.mp hd).resolve_left hde)]

/-! ### The parallel loops -/

theorem length_parallel (hv : g.validate = .ok ()) :
    (g.iterations UnrollPlan.parallel).length = g.outputMap.count := by
  rw [length_iterations, outputMap_count_eq hv]
  simp only [UnrollPlan.parallel, List.map_cons, List.map_nil, List.prod_cons, List.prod_nil,
    LoopDim.extent]
  -- the depths are the outermost loop here and the innermost one in the output buffer
  rw [Nat.mul_one, Nat.mul_comm, Nat.mul_assoc, Nat.mul_assoc]

/-- The replica of an iteration of the parallel loops. -/
theorem exists_replica {t : Counters} (ht : t ∈ g.iterations UnrollPlan.parallel) :
    ∃ r : Replica g, t .outRow = r.h ∧ t .outCol = r.w ∧ t .channel = r.c ∧
      t .depthMultiplier = r.dm ∧ g.place t = r.index :=
  ⟨⟨⟨_, lt_extent_of_mem ht (d := .outRow) (by decide)⟩,
    ⟨_, lt_extent_of_mem ht (d := .outCol) (by decide)⟩,
    ⟨_, lt_extent_of_mem ht (d := .channel) (by decide)⟩,
    ⟨_, lt_extent_of_mem ht (d := .depthMultiplier) (by decide)⟩⟩, rfl, rfl, rfl, rfl, rfl⟩

/-- Every replica has an iteration. -/
theorem exists_place_eq (r : Replica g) :
    ∃ t ∈ g.iterations UnrollPlan.parallel, g.place t = r.index := by
  let t : Counters
    | .outRow => r.h
    | .outCol => r.w
    | .channel => r.c
    | .depthMultiplier => r.dm
    | .filterRow | .filterCol => 0
  have ht : ∀ d ∈ UnrollPlan.parallel, t d < d.extent g := by
    simp only [UnrollPlan.parallel, List.forall_mem_cons, List.not_mem_nil, false_implies,
      implies_true, and_true]
    exact ⟨r.dm.isLt, r.h.isLt, r.w.isLt, r.c.isLt⟩
  obtain ⟨s, hs, heq⟩ := exists_mem_iterations ht
  refine ⟨s, hs, ?_⟩
  rw [place, heq .outRow (by decide), heq .outCol (by decide), heq .channel (by decide),
    heq .depthMultiplier (by decide)]
  rfl

/-- **The parallel loops have every place of the output buffer once.** -/
theorem map_place_iterations (hv : g.validate = .ok ()) :
    ((g.iterations UnrollPlan.parallel).map g.place).Perm (List.range g.outputMap.count) := by
  have hsub : List.range g.outputMap.count ⊆ (g.iterations UnrollPlan.parallel).map g.place := by
    intro i hi
    obtain ⟨r, rfl⟩ := exists_index_eq hv (List.mem_range.mp hi)
    exact List.mem_map.mpr (exists_place_eq r)
  refine ((List.subperm_of_subset List.nodup_range hsub).perm_of_length_le ?_).symm
  rw [List.length_map, length_parallel hv, List.length_range]

end Geometry

/-! ### Runs over the iterations -/

namespace Config

variable {D W P B A O : Type} (cfg : Config D W P B A O)

/-- The output buffer after an iteration of the parallel loops, which finishes its element and
stores it at its place; absent where an operand is missing or the place is not in the buffer. -/
def iterate? (input : Array D) (weights : Array W) (biases : Array B) (buffer : Array O)
    (t : Counters) : Option (Array O) := do
  let o ← cfg.element? input weights biases (t .outRow) (t .outCol) (t .channel)
    (t .depthMultiplier)
  guard (cfg.geometry.place t < buffer.size)
  return buffer.setIfInBounds (cfg.geometry.place t) o

variable {input : Array D} {weights : Array W} {biases : Array B} {output : Array O}
  (lens : cfg.geometry.checkOperands input.size weights.size biases.size output.size = .ok ())

include lens

/-- An iteration stores the element that the kernel leaves at its place. -/
theorem iterate?_eq_some {t : Counters} (ht : t ∈ cfg.geometry.iterations UnrollPlan.parallel)
    {buffer : Array O} (hsize : buffer.size = cfg.geometry.outputMap.count) :
    ∃ o, (cfg.compute input weights biases output).output[cfg.geometry.place t]? = some o ∧
      cfg.iterate? input weights biases buffer t =
        some (buffer.setIfInBounds (cfg.geometry.place t) o) := by
  obtain ⟨r, hh, hw, hc, hdm, hplace⟩ := Geometry.exists_replica ht
  have helement := cfg.element?_replica (cfg.operands lens) r
  have hget := cfg.getElem?_compute lens r
  have hlt : r.index < buffer.size := by
    obtain ⟨hlt, -⟩ := Array.getElem?_eq_some_iff.mp hget
    rwa [cfg.size_compute lens, ← hsize] at hlt
  refine ⟨_, hplace ▸ hget, ?_⟩
  rw [iterate?, hh, hw, hc, hdm, hplace]
  rw [show cfg.element? input weights biases r.h r.w r.c r.dm = _ from helement]
  simp only [Option.bind_eq_bind, Option.bind_some, guard, hlt, if_true, Option.pure_def]

/-- **A run over iterations settles their places**, if all other places are settled before. -/
theorem foldlM_iterate? {order : List Counters}
    (horder : ∀ t ∈ order, t ∈ cfg.geometry.iterations UnrollPlan.parallel) {buffer : Array O}
    (hsize : buffer.size = cfg.geometry.outputMap.count)
    (hsettled : ∀ i ∉ order.map cfg.geometry.place,
      buffer[i]? = (cfg.compute input weights biases output).output[i]?) :
    order.foldlM (cfg.iterate? input weights biases) buffer =
      some (cfg.compute input weights biases output).output := by
  induction order generalizing buffer with
  | nil => exact congrArg some (Array.ext_getElem? fun i => hsettled i List.not_mem_nil)
  | cons t order ih =>
      obtain ⟨o, ho, hstep⟩ := cfg.iterate?_eq_some lens (horder t List.mem_cons_self) hsize
      rw [List.foldlM_cons, hstep]
      refine ih (fun s hs => horder s (List.mem_cons_of_mem t hs))
        ((Array.size_setIfInBounds ..).trans hsize) fun i hi => ?_
      by_cases hti : cfg.geometry.place t = i
      · subst hti
        obtain ⟨hlt, -⟩ := Array.getElem?_eq_some_iff.mp ho
        rw [cfg.size_compute lens, ← hsize] at hlt
        rw [Array.getElem?_setIfInBounds_self_of_lt hlt, ho]
      · rw [Array.getElem?_setIfInBounds_ne hti]
        refine hsettled i fun hmem => ?_
        rcases List.mem_cons.mp hmem with h | h
        · exact hti h.symm
        · exact hi h

/-- **The parallel loops are free of order.**  Let all iterations of the parallel loops run in any
order over any buffer with as many elements as the plan has replicas, each finishing its own
element from the operands and storing it at its place.  Every place is written once, there are as
many iterations as replicas, and the buffer ends as the kernel leaves it. -/
theorem compute_eq_foldlM_iterate? {order : List Counters}
    (horder : order.Perm (cfg.geometry.iterations UnrollPlan.parallel)) {initial : Array O}
    (hinitial : initial.size =
      (UnrollPlan.make cfg.geometry cfg.accumulator.orderSensitive).replicas) :
    let run := cfg.compute input weights biases output
    run.result = .ok () ∧
      order.foldlM (cfg.iterate? input weights biases) initial = some run.output ∧
      (order.map cfg.geometry.place).Perm (List.range initial.size) ∧
      (UnrollPlan.make cfg.geometry cfg.accumulator.orderSensitive).replicas = order.length := by
  rw [UnrollPlan.replicas_make cfg.valid] at hinitial ⊢
  have hplaces := (horder.map cfg.geometry.place).trans (Geometry.map_place_iterations cfg.valid)
  refine ⟨?_, ?_, hinitial ▸ hplaces, ?_⟩
  · rw [compute_of_ok cfg lens]
  · refine cfg.foldlM_iterate? lens (fun t ht => horder.mem_iff.mp ht) hinitial fun i hi => ?_
    have hge : cfg.geometry.outputMap.count ≤ i :=
      not_lt.mp fun hlt => hi (hplaces.mem_iff.mpr (List.mem_range.mpr hlt))
    rw [Array.getElem?_eq_none (hinitial ▸ hge),
      Array.getElem?_eq_none (cfg.size_compute lens ▸ hge)]
  · rw [horder.length_eq, Geometry.length_parallel cfg.valid]

end Config

/-- The layer with its windows far apart, its iterations taken from the last one to the first, over
a buffer that is not blank: the element of depth 1 of channel 1 at pixel `(1, 1)`. -/
theorem foldlM_iterate?_farApart :
    Geometry.farApart.checkOperands 12 16 4 24 = .ok () ∧
      24 = (UnrollPlan.make Geometry.farApart true).replicas ∧
      ∃ buffer, ((Geometry.farApart.iterations UnrollPlan.parallel).reverse.foldlM
          (Config.farApart.iterate? (countUp 12) (countUp 16) (countUp 4)) (countUp 24)) =
            some buffer ∧
        buffer[19]? = some ((((3 * 2 + 1 * 9) * 2 + 3 * 11) * 2 + 7 * 13) * 2 + 9 * 15) := by
  have lens : Geometry.farApart.checkOperands (countUp 12).size (countUp 16).size (countUp 4).size
      (countUp 24).size = .ok () := rfl
  have hinitial : (countUp 24).size = (UnrollPlan.make Geometry.farApart true).replicas := rfl
  obtain ⟨-, hrun, -, -⟩ := Config.farApart.compute_eq_foldlM_iterate? lens
    (Geometry.farApart.iterations UnrollPlan.parallel).reverse_perm hinitial
  exact ⟨lens, hinitial, _, hrun, by decide +kernel⟩

end Depthwise
