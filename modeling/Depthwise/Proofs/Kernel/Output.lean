import Depthwise.Proofs.Kernel.Replicas
import Depthwise.Proofs.Kernel.Window
import Mathlib.Algebra.Group.Nat.Defs

/-!
# What the kernel writes

`Config.element?` reads one output element off the three flat buffers: it takes the bias of its
channel and depth, and sums the products of the cells of its window that lie in the input, by row
and then by column.  The samples, the weights, the biases and the outputs stand at the offsets their
layouts prescribe, which are written out here.

* `getElem?_compute`: at the place of a replica the kernel leaves its finished slot, cast.
* `element?_replica`: that is the element read off the buffers.
* `compute_eq_element?`: on buffers of the right lengths the kernel succeeds, every output element
  is the one read off the buffers, and there is no other.

Nothing is assumed of the rules for products, sums and outputs.
-/

namespace Depthwise

/-- Reading every item of a list succeeds when every single reading does. -/
theorem mapM_eq_some_map {α β : Type} {f : α → Option β} {p : α → β} {l : List α}
    (h : ∀ a ∈ l, f a = some (p a)) : l.mapM f = some (l.map p) := by
  induction l with
  | nil => rfl
  | cons a l ih =>
      rw [List.mapM_cons, h a List.mem_cons_self, ih fun b hb => h b (List.mem_cons_of_mem a hb)]
      rfl

/-- Writing as many values as there are leaves nothing of the buffer. -/
theorem overwrite_of_length {O : Type} {buffer : Array O} {values : List O}
    (h : values.length = buffer.size) : overwrite buffer values = values.toArray := by
  rw [overwrite, h, Array.extract_empty_of_stop_le_start (Nat.le_refl _), Array.append_empty]

namespace Operands

variable {g : Geometry} {D W B : Type} (x : Operands g D W B)

theorem getElem?_sample (row : Fin g.rows.input) (col : Fin g.cols.input) (c : Fin g.channels) :
    x.input[g.inputMap.index row col c]? = some (x.sample row col c) :=
  Array.getElem?_eq_getElem _

theorem getElem?_weight (dm : Fin g.depthMultiplier) (kh : Fin g.rows.filt)
    (kw : Fin g.cols.filt) (c : Fin g.channels) :
    x.weights[g.filterBank.index dm kh kw c]? = some (x.weight dm kh kw c) :=
  Array.getElem?_eq_getElem _

theorem getElem?_bias (c : Fin g.channels) (dm : Fin g.depthMultiplier) :
    x.biases[g.filterBank.channel c dm]? = some (x.bias c dm) :=
  Array.getElem?_eq_getElem _

end Operands

namespace Geometry

variable (g : Geometry)

/-- The offset of the sample under cell `k` of the window at `(h, w)`, in channel `c`. -/
def sampleOffset (h w c : Nat) (k : Nat × Nat) : Nat :=
  (g.rows.place h k.1).toNat * g.cols.input * g.channels +
    (g.cols.place w k.2).toNat * g.channels + c

/-- The offset of the weight at cell `k` of the window of depth `dm`, in channel `c`. -/
def weightOffset (c dm : Nat) (k : Nat × Nat) : Nat :=
  dm * g.rows.filt * g.cols.filt * g.channels + k.1 * g.cols.filt * g.channels +
    k.2 * g.channels + c

/-- The offset of the output at pixel `(h, w)`, of depth `dm` of channel `c`. -/
def outputOffset (h w c dm : Nat) : Nat :=
  h * g.cols.out * g.filters + w * g.filters + (c * g.depthMultiplier + dm)

variable {g}

/-- The weight at a cell of a window is there. -/
theorem exists_getElem?_weightOffset {D W B : Type} (x : Operands g D W B) (c : Fin g.channels)
    (dm : Fin g.depthMultiplier) {k : Nat × Nat} (hk : k ∈ g.window) :
    ∃ v, x.weights[g.weightOffset c dm k]? = some v := by
  obtain ⟨hkh, hkw⟩ := mem_window.mp hk
  exact ⟨_, x.getElem?_weight dm ⟨k.1, hkh⟩ ⟨k.2, hkw⟩ c⟩

/-- Every offset below the length of the output belongs to a pixel, a channel and a depth. -/
theorem exists_outputOffset_eq (hv : g.validate = .ok ()) {i : Nat} (hi : i < g.outputMap.count) :
    ∃ h w c dm, h < g.rows.out ∧ w < g.cols.out ∧ c < g.channels ∧ dm < g.depthMultiplier ∧
      i = g.outputOffset h w c dm := by
  obtain ⟨r, rfl⟩ := exists_index_eq hv hi
  exact ⟨r.h, r.w, r.c, r.dm, r.h.isLt, r.w.isLt, r.c.isLt, r.dm.isLt, rfl⟩

/-- The sample and the weight at cell `k` of the window at `(h, w)`, if both are there. -/
def operands? {D W : Type} (g : Geometry) (input : Array D) (weights : Array W) (h w c dm : Nat)
    (k : Nat × Nat) : Option (D × W) := do
  let d ← input[g.sampleOffset h w c k]?
  let v ← weights[g.weightOffset c dm k]?
  return (d, v)

end Geometry

namespace Operands

variable {g : Geometry} {D W B : Type} (x : Operands g D W B) (r : Replica g)

/-- The samples and the weights of a replica, in the order their products are summed. -/
def pairs : List (D × W) :=
  (g.taps r.h r.w).map fun t => (x.sample t.row t.col r.c, x.weight r.dm t.kh t.kw r.c)

theorem operands?_tap {t : Tap g} (ht : t ∈ g.taps r.h r.w) :
    g.operands? x.input x.weights r.h r.w r.c r.dm t.cell =
      some (x.sample t.row t.col r.c, x.weight r.dm t.kh t.kw r.c) := by
  have hs : g.sampleOffset r.h r.w r.c t.cell = g.inputMap.index t.row t.col r.c := by
    rw [Geometry.sampleOffset, Tap.cell, Geometry.row_eq_place ht, Geometry.col_eq_place ht]
    rfl
  have hw : g.weightOffset r.c r.dm t.cell = g.filterBank.index r.dm t.kh t.kw r.c := rfl
  rw [Geometry.operands?, hs, hw, x.getElem?_sample, x.getElem?_weight]
  rfl

/-- The pairs over the covered cells of a window are those of its replica. -/
theorem mapM_operands? :
    (g.window.filter (g.Covers r.h r.w)).mapM
      (g.operands? x.input x.weights r.h r.w r.c r.dm) = some (x.pairs r) := by
  rw [← Geometry.map_cell_taps, List.mapM_map]
  exact mapM_eq_some_map fun t ht => x.operands?_tap r ht

theorem length_pairs : (x.pairs r).length = (g.window.filter (g.Covers r.h r.w)).length := by
  rw [← Geometry.map_cell_taps, pairs, List.length_map, List.length_map]

theorem length_pairs_le : (x.pairs r).length ≤ g.window.length := by
  rw [length_pairs]
  exact List.length_filter_le _ _

/-- As many pairs as a window has cells are there when it lies in the input. -/
theorem length_pairs_eq_iff :
    (x.pairs r).length = g.window.length ↔ ∀ k ∈ g.window, g.Covers r.h r.w k := by
  rw [length_pairs, List.length_filter_eq_length_iff]
  simp only [decide_eq_true_eq]

end Operands

namespace Config

variable {D W P B A O : Type} (cfg : Config D W P B A O)

/-- The product at cell `k` of the window at `(h, w)`, if both operands are there. -/
def product? (input : Array D) (weights : Array W) (h w c dm : Nat) (k : Nat × Nat) : Option P := do
  let d ← input[cfg.geometry.sampleOffset h w c k]?
  let v ← weights[cfg.geometry.weightOffset c dm k]?
  return cfg.product d v

/-- The output element at pixel `(h, w)`, of depth `dm` of channel `c`, if all it needs is there. -/
def element? (input : Array D) (weights : Array W) (biases : Array B) (h w c dm : Nat) :
    Option O := do
  let g := cfg.geometry
  let bias ← biases[c * g.depthMultiplier + dm]?
  let products ← (g.window.filter (g.Covers h w)).mapM (cfg.product? input weights h w c dm)
  return cfg.cast (products.foldl cfg.accumulator.accumulate (cfg.accumulator.seed bias))

theorem product?_eq_map (input : Array D) (weights : Array W) (h w c dm : Nat) (k : Nat × Nat) :
    cfg.product? input weights h w c dm k =
      (cfg.geometry.operands? input weights h w c dm k).map fun t => cfg.product t.1 t.2 := by
  simp only [product?, Geometry.operands?, Option.bind_eq_bind, Option.pure_def, Option.map_bind,
    Function.comp_def, Option.map_some]

theorem product?_tap (x : Operands cfg.geometry D W B) (r : Replica cfg.geometry)
    {t : Tap cfg.geometry} (ht : t ∈ cfg.geometry.taps r.h r.w) :
    cfg.product? x.input x.weights r.h r.w r.c r.dm t.cell =
      some (cfg.product (x.sample t.row t.col r.c) (x.weight r.dm t.kh t.kw r.c)) := by
  rw [product?_eq_map, x.operands?_tap r ht]
  rfl

/-- The products over the covered cells of a window are those of its replica. -/
theorem mapM_product? (x : Operands cfg.geometry D W B) (r : Replica cfg.geometry) :
    (cfg.geometry.window.filter (cfg.geometry.Covers r.h r.w)).mapM
      (cfg.product? x.input x.weights r.h r.w r.c r.dm) = some (cfg.products x r) := by
  rw [← Geometry.map_cell_taps, List.mapM_map]
  exact mapM_eq_some_map fun t ht => cfg.product?_tap x r ht

/-- The products of a replica are those of its pairs. -/
theorem products_eq_map_pairs (x : Operands cfg.geometry D W B) (r : Replica cfg.geometry) :
    cfg.products x r = (x.pairs r).map fun t => cfg.product t.1 t.2 := by
  rw [products, Operands.pairs, List.map_map]
  rfl

/-- The element read off the buffers is the finished slot, cast. -/
theorem element?_replica (x : Operands cfg.geometry D W B) (r : Replica cfg.geometry) :
    cfg.element? x.input x.weights x.biases r.h r.w r.c r.dm = some (cfg.cast (cfg.slot x r)) := by
  have hbias : x.biases[r.c * cfg.geometry.depthMultiplier + r.dm]? = some (x.bias r.c r.dm) :=
    x.getElem?_bias r.c r.dm
  simp only [element?, hbias, cfg.mapM_product? x r]
  rfl

variable {input : Array D} {weights : Array W} {biases : Array B} {output : Array O}
  (lens : cfg.geometry.checkOperands input.size weights.size biases.size output.size = .ok ())

include lens

theorem output_compute :
    (cfg.compute input weights biases output).output =
      (cfg.outputs (cfg.operands lens)).toArray := by
  have hsize : (cfg.outputs (cfg.operands lens)).length = output.size := by
    rw [outputs, List.length_map, Geometry.length_replicas cfg.valid,
      ← (Geometry.outputMap_count cfg.valid).2]
    exact (Geometry.checkOperands_eq_ok.mp lens).2.2.2
  rw [compute_of_ok cfg lens]
  exact overwrite_of_length hsize

theorem size_compute :
    (cfg.compute input weights biases output).output.size = cfg.geometry.outputMap.count := by
  rw [output_compute cfg lens, List.size_toArray, outputs, List.length_map,
    Geometry.length_replicas cfg.valid]

/-- **The finished slot of a replica, cast, stands at its place.** -/
theorem getElem?_compute (r : Replica cfg.geometry) :
    (cfg.compute input weights biases output).output[r.index]? =
      some (cfg.cast (cfg.slot (cfg.operands lens) r)) := by
  rw [output_compute cfg lens, List.getElem?_toArray, outputs, List.getElem?_map,
    Geometry.getElem?_index cfg.valid]
  rfl

/-- At the offset of a pixel, a channel and a depth stands the element read off the buffers. -/
theorem getElem?_outputOffset {h w c dm : Nat} (hh : h < cfg.geometry.rows.out)
    (hw : w < cfg.geometry.cols.out) (hc : c < cfg.geometry.channels)
    (hd : dm < cfg.geometry.depthMultiplier) :
    (cfg.compute input weights biases output).output[cfg.geometry.outputOffset h w c dm]? =
      cfg.element? input weights biases h w c dm := by
  let r : Replica cfg.geometry := ⟨⟨h, hh⟩, ⟨w, hw⟩, ⟨c, hc⟩, ⟨dm, hd⟩⟩
  exact (getElem?_compute cfg lens r).trans (cfg.element?_replica (cfg.operands lens) r).symm

/-- **What the kernel writes**: it succeeds, the element at the offset of every pixel, channel and
depth is the one read off the buffers, and every offset below the length of the output is one of
these. -/
theorem compute_eq_element? :
    (cfg.compute input weights biases output).result = .ok () ∧
      (∀ h w c dm, h < cfg.geometry.rows.out → w < cfg.geometry.cols.out →
        c < cfg.geometry.channels → dm < cfg.geometry.depthMultiplier →
        ∃ o, cfg.element? input weights biases h w c dm = some o ∧
          (cfg.compute input weights biases output).output[
            cfg.geometry.outputOffset h w c dm]? = some o) ∧
      ∀ i < (cfg.compute input weights biases output).output.size, ∃ h w c dm,
        h < cfg.geometry.rows.out ∧ w < cfg.geometry.cols.out ∧ c < cfg.geometry.channels ∧
          dm < cfg.geometry.depthMultiplier ∧ i = cfg.geometry.outputOffset h w c dm := by
  refine ⟨?_, ?_, ?_⟩
  · rw [compute_of_ok cfg lens]
  · intro h w c dm hh hw hc hd
    let r : Replica cfg.geometry := ⟨⟨h, hh⟩, ⟨w, hw⟩, ⟨c, hc⟩, ⟨dm, hd⟩⟩
    exact ⟨_, cfg.element?_replica (cfg.operands lens) r, getElem?_compute cfg lens r⟩
  · intro i hi
    rw [size_compute cfg lens] at hi
    exact Geometry.exists_outputOffset_eq cfg.valid hi

end Config

/-! ### A layer with its windows far apart -/

/-- Two channels of two rows and three columns, with two filters each.  The second row of windows
starts `2 ^ 63` rows behind the first, which lies in the padding. -/
def Geometry.farApart : Geometry where
  rows := { input := 2, filt := 2, stride := 2 ^ 63, out := 2, before := 2 ^ 63, after := none }
  cols := { input := 3, filt := 2, stride := 1, out := 3, before := 1, after := some 0 }
  channels := 2
  filters := 4

theorem Geometry.validate_farApart : Geometry.farApart.validate = .ok () := rfl

/-- That layer with sums in which the order counts. -/
def Config.farApart : Config Int Int Int Int Int Int where
  geometry := Geometry.farApart
  product d v := d * v
  accumulator := ⟨fun b => b, fun a p => 2 * a + p, true⟩
  cast a := a
  valid := Geometry.validate_farApart

/-- The numbers below `n`, in order. -/
def countUp (n : Nat) : Array Int := ((List.range n).map Int.ofNat).toArray

/-- The output of depth 1 of channel 1 at pixel `(1, 1)`: its bias is 3, and the four cells of its
window lie on the samples 1, 3, 7 and 9 and have the weights 9, 11, 13 and 15. -/
theorem compute_farApart :
    Geometry.farApart.checkOperands 12 16 4 24 = .ok () ∧
      (Config.farApart.compute (countUp 12) (countUp 16) (countUp 4) (countUp 24)).output[19]? =
        some ((((3 * 2 + 1 * 9) * 2 + 3 * 11) * 2 + 7 * 13) * 2 + 9 * 15) := by
  have lens : Geometry.farApart.checkOperands (countUp 12).size (countUp 16).size (countUp 4).size
      (countUp 24).size = .ok () := rfl
  obtain ⟨-, hout, -⟩ := Config.farApart.compute_eq_element? lens
  obtain ⟨o, ho, h⟩ := hout 1 1 1 1 (by decide) (by decide) (by decide) (by decide)
  have helement : Config.farApart.element? (countUp 12) (countUp 16) (countUp 4) 1 1 1 1 =
      some ((((3 * 2 + 1 * 9) * 2 + 3 * 11) * 2 + 7 * 13) * 2 + 9 * 15) := by decide +kernel
  exact ⟨lens, h.trans (ho.symm.trans helement)⟩

end Depthwise
