import Depthwise.Kernel
import Mathlib.Data.List.FinRange

/-!
# The order of the replicas

The four loops over the output visit the replicas in the order of the output buffer: their places,
listed in the order of the visit, are `0, 1, 2, …` up to the length of the buffer
(`map_index_replicas`).  So a replica stands at its own place in that list (`getElem?_index`), and
as many replicas come before it as its place says (`index_eq_length`).

The places are numerals with one digit for each loop.  Two neighbouring digits of `n` and `k` values
make one of `n * k` values (`flatMap_blocks`), and this takes the loops together from the inside
out.
-/

namespace Depthwise

/-- Counting on from `b` through `n` blocks of `k` is counting on to `n * k`. -/
theorem flatMap_blocks (b n k : Nat) :
    ((List.range n).flatMap fun i => (List.range k).map fun j => b + (i * k + j)) =
      (List.range (n * k)).map fun i => b + i := by
  induction n with
  | zero => simp
  | succ n ih =>
      rw [List.range_succ, List.flatMap_append, ih, Nat.succ_mul, List.range_add, List.map_append]
      simp [Function.comp_def]

/-- A loop over the numbers below `n` that only looks at their values. -/
theorem flatMap_finRange {α : Type} (f : Nat → List α) (n : Nat) :
    ((List.finRange n).flatMap fun i : Fin n => f i) = (List.range n).flatMap f := by
  rw [← List.map_coe_finRange_eq_range, List.flatMap_map]

theorem map_finRange {α : Type} (f : Nat → α) (n : Nat) :
    ((List.finRange n).map fun i : Fin n => f i) = (List.range n).map f := by
  rw [← List.map_coe_finRange_eq_range, List.map_map]
  rfl

namespace Geometry

variable {g : Geometry}

theorem mem_replicas (r : Replica g) : r ∈ g.replicas := by
  simp only [replicas, List.mem_flatMap, List.mem_map, List.mem_finRange, true_and]
  exact ⟨r.h, r.w, r.c, r.dm, rfl⟩

theorem outputMap_count_eq (hv : g.validate = .ok ()) :
    g.outputMap.count = g.rows.out * (g.cols.out * (g.channels * g.depthMultiplier)) := by
  rw [filters_eq hv, ← Nat.mul_assoc]
  rfl

/-- The place of a replica, one digit for each loop. -/
theorem index_replica (hv : g.validate = .ok ()) (r : Replica g) :
    r.index = r.h * (g.cols.out * (g.channels * g.depthMultiplier)) +
      r.w * (g.channels * g.depthMultiplier) + (r.c * g.depthMultiplier + r.dm) := by
  rw [filters_eq hv, ← Nat.mul_assoc]
  rfl

/-- **The places of the replicas**, in the order of the visit. -/
theorem map_index_replicas (hv : g.validate = .ok ()) :
    g.replicas.map Replica.index = List.range g.outputMap.count := by
  simp only [outputMap_count_eq hv, replicas, List.map_flatMap, List.map_map, Function.comp_def,
    index_replica hv]
  generalize g.rows.out = m, g.cols.out = l, g.channels = n, g.depthMultiplier = k
  calc
    _ = (List.range m).flatMap fun h => (List.range l).flatMap fun w =>
          (List.range n).flatMap fun c => (List.range k).map fun dm =>
            h * (l * (n * k)) + w * (n * k) + (c * k + dm) := by
      simp only [← flatMap_finRange, ← map_finRange]
    _ = (List.range m).flatMap fun h => (List.range l).flatMap fun w =>
          (List.range (n * k)).map fun i => h * (l * (n * k)) + w * (n * k) + i := by
      simp only [flatMap_blocks]
    _ = (List.range m).flatMap fun h => (List.range (l * (n * k))).map fun i =>
          h * (l * (n * k)) + i := by
      simp only [Nat.add_assoc, flatMap_blocks]
    _ = List.range (m * (l * (n * k))) := by
      simpa only [Nat.zero_add, List.map_id'] using flatMap_blocks 0 m (l * (n * k))

/-- The replica visited at place `i`. -/
theorem index_getElem_replicas (hv : g.validate = .ok ()) {i : Nat} (hi : i < g.replicas.length) :
    g.replicas[i].index = i := by
  have h : i < (g.replicas.map Replica.index).length := by rwa [List.length_map]
  rw [← List.getElem_map Replica.index (h := h)]
  simp only [map_index_replicas hv, List.getElem_range]

theorem length_replicas (hv : g.validate = .ok ()) : g.replicas.length = g.outputMap.count := by
  rw [← List.length_map Replica.index, map_index_replicas hv, List.length_range]

/-- A replica stands at its own place in the order of the visit. -/
theorem getElem?_index (hv : g.validate = .ok ()) (r : Replica g) :
    g.replicas[r.index]? = some r := by
  obtain ⟨i, hi, rfl⟩ := List.getElem_of_mem (mem_replicas r)
  rw [index_getElem_replicas hv hi, List.getElem?_eq_getElem hi]

/-- As many replicas come before a replica as its place says. -/
theorem index_eq_length (hv : g.validate = .ok ()) {before after : List (Replica g)}
    {r : Replica g} (h : g.replicas = before ++ r :: after) : r.index = before.length := by
  have hlt : before.length < g.replicas.length := by simp [h]
  have hr : g.replicas[before.length] = r := by simp [h]
  rw [← hr, index_getElem_replicas hv hlt]

/-- Every place below the length of the output buffer is that of a replica. -/
theorem exists_index_eq (hv : g.validate = .ok ()) {i : Nat} (hi : i < g.outputMap.count) :
    ∃ r : Replica g, r.index = i := by
  rw [← length_replicas hv] at hi
  exact ⟨g.replicas[i], index_getElem_replicas hv hi⟩

end Geometry

end Depthwise
