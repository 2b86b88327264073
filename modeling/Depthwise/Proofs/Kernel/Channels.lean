import Depthwise.Proofs.Geometry.Consistent
import Depthwise.Proofs.Kernel.Words

/-!
# Channels on their own

The items of a channel stand a fixed number of places apart in a map; taken together they are the
**strand** of the channel.  One output channel of a layer is a layer of its own: the geometry with a
single channel (`Geometry.alone`), run on the strand of one input channel with the one window and
the one bias that belong to the output channel, leaves the strand of the output channel.

* `getElem?_strand`: item `i` of a strand is item `i * n + k` of the map.
* `element?_alone`: the element read off the strand, the window and the bias is that of the layer.
* `compute_strand`: the output of the layer on its own is the strand, so that nothing but one input
  channel, one window and one bias has a part in an output channel.
-/

namespace Depthwise

/-! ### Strands -/

/-- The items of a map at the places that leave the remainder `k` modulo `n`. -/
def strand {α : Type} (n k : Nat) (a : Array α) : Array α :=
  (((List.range a.size).filter (· % n = k)).filterMap (a[·]?)).toArray

/-- A selection in which nothing is missing. -/
theorem map_some_filterMap {α β : Type} {f : α → Option β} {l : List α}
    (h : ∀ a ∈ l, ∃ b, f a = some b) : (l.filterMap f).map some = l.map f := by
  rw [List.map_filterMap_some_eq_filter_map_isSome, List.filter_eq_self]
  intro o ho
  obtain ⟨a, ha, rfl⟩ := List.mem_map.mp ho
  obtain ⟨b, hb⟩ := h a ha
  rw [hb]
  rfl

theorem length_filterMap {α β : Type} {f : α → Option β} {l : List α}
    (h : ∀ a ∈ l, ∃ b, f a = some b) : (l.filterMap f).length = l.length := by
  rw [← List.length_map some, map_some_filterMap h, List.length_map]

theorem getElem?_filterMap {α β : Type} {f : α → Option β} {l : List α}
    (h : ∀ a ∈ l, ∃ b, f a = some b) (i : Nat) : (l.filterMap f)[i]? = l[i]?.bind f := by
  have hget := congrArg (·[i]?) (map_some_filterMap h)
  simp only [List.getElem?_map] at hget
  cases hl : l[i]? with
  | none => simpa [hl] using hget
  | some a =>
      obtain ⟨b, hb, hf⟩ : ∃ b, (l.filterMap f)[i]? = some b ∧ some b = f a := by
        simpa [hl] using hget
      rw [hb, hf]
      rfl

/-- Every block of `n` places has one with the remainder `k`. -/
theorem filter_range_mod {n k : Nat} (hk : k < n) (m : Nat) :
    (List.range (m * n)).filter (· % n = k) = (List.range m).map fun i => i * n + k := by
  induction m with
  | zero => simp
  | succ m ih =>
      have hblock : (List.range n).filter (fun j => (m * n + j) % n = k) = [k] := by
        have hmod : ∀ j ∈ List.range n, decide ((m * n + j) % n = k) = decide (j = k) := by
          intro j hj
          rw [Nat.mul_add_mod_self_right, Nat.mod_eq_of_lt (List.mem_range.mp hj)]
        rw [List.filter_congr hmod, List.filter_eq, List.count_range, if_pos hk]
        rfl
      rw [Nat.succ_mul, List.range_add, List.filter_append, ih, List.filter_map]
      rw [show ((fun i => decide (i % n = k)) ∘ fun j => m * n + j) =
        fun j => decide ((m * n + j) % n = k) from rfl, hblock, List.range_succ, List.map_append]
      rfl

section

variable {α : Type} {n k m : Nat} {a : Array α} (hk : k < n) (hsize : a.size = m * n)

include hk hsize

theorem strand_eq :
    strand n k a = ((List.range m).filterMap fun i => a[i * n + k]?).toArray := by
  rw [strand, hsize, filter_range_mod hk, List.filterMap_map]
  rfl

/-- Every block has its item. -/
theorem exists_getElem?_block {i : Nat} (hi : i ∈ List.range m) : ∃ b, a[i * n + k]? = some b := by
  have hlt : i * n + k < a.size := hsize ▸ block_offset_lt (List.mem_range.mp hi) hk
  exact ⟨_, Array.getElem?_eq_getElem hlt⟩

theorem size_strand : (strand n k a).size = m := by
  rw [strand_eq hk hsize, List.size_toArray,
    length_filterMap fun i hi => exists_getElem?_block hk hsize hi, List.length_range]

/-- **The items of a strand** are those of the map at the places of its channel. -/
theorem getElem?_strand (i : Nat) : (strand n k a)[i]? = a[i * n + k]? := by
  rw [strand_eq hk hsize, List.getElem?_toArray,
    getElem?_filterMap fun i hi => exists_getElem?_block hk hsize hi]
  rcases Nat.lt_or_ge i m with hi | hi
  · rw [List.getElem?_range hi]
    rfl
  · have hge : m * n ≤ i * n + k := Nat.le_add_right_of_le (Nat.mul_le_mul_right n hi)
    rw [List.getElem?_eq_none (List.length_range ▸ hi), Array.getElem?_eq_none (hsize ▸ hge)]
    rfl

/-- Maps that agree at the places of a channel have the same strand. -/
theorem strand_congr {b : Array α} (hb : b.size = m * n)
    (h : ∀ i, i % n = k → b[i]? = a[i]?) : strand n k b = strand n k a := by
  refine Array.ext_getElem? fun i => ?_
  rw [getElem?_strand hk hb, getElem?_strand hk hsize, h]
  rw [Nat.mul_add_mod_self_right, Nat.mod_eq_of_lt hk]

end

/-! ### The geometry of one channel -/

namespace Geometry

variable (g : Geometry)

/-- The geometry with a single channel and a single filter. -/
def alone : Geometry := { g with channels := 1, filters := 1 }

/-- The weights of the window of depth `dm` in channel `c`, row by row. -/
def windowWeights {W : Type} (weights : Array W) (c dm : Nat) : Array W :=
  (g.window.filterMap fun k => weights[g.weightOffset c dm k]?).toArray

variable {g}

theorem validate_alone (hv : g.validate = .ok ()) : g.alone.validate = .ok () := by
  have h := validate_eq_ok_iff.mp hv
  refine validate_eq_ok_iff.mpr
    { rows := h.rows
      cols := h.cols
      channels_pos := Nat.one_pos
      filters_pos := Nat.one_pos
      channels_dvd := Nat.dvd_refl 1
      input_le := ?_
      weights_le := ?_
      output_le := ?_ }
  · exact Nat.le_trans (Nat.mul_le_mul_left _ h.channels_pos) h.input_le
  · exact Nat.le_trans (Nat.mul_le_mul_left _ h.filters_pos) h.weights_le
  · exact Nat.le_trans (Nat.mul_le_mul_left _ h.filters_pos) h.output_le

theorem depthMultiplier_alone : g.alone.depthMultiplier = 1 := Nat.div_self Nat.one_pos

theorem sampleOffset_alone (h w c : Nat) (k : Nat × Nat) :
    g.sampleOffset h w c k = g.alone.sampleOffset h w 0 k * g.channels + c := by
  simp only [sampleOffset, alone, Nat.mul_one, Nat.add_zero, Nat.add_mul]

theorem outputOffset_alone (h w c dm : Nat) :
    g.outputOffset h w c dm =
      g.alone.outputOffset h w 0 0 * g.filters + g.filterBank.channel c dm := by
  simp only [outputOffset, alone, Nat.mul_one, Nat.zero_mul, Nat.add_zero, Nat.add_mul]
  rfl

theorem weightOffset_alone (k : Nat × Nat) :
    g.alone.weightOffset 0 0 k = k.1 * g.cols.filt + k.2 := by
  simp only [weightOffset, alone, Nat.mul_one, Nat.zero_mul, Nat.zero_add, Nat.add_zero]

/-- The cells of a window are as many as the weights of a single filter, in the same order. -/
theorem map_weightOffset_alone :
    g.window.map (g.alone.weightOffset 0 0) = List.range (g.rows.filt * g.cols.filt) := by
  have hblocks := flatMap_blocks 0 g.rows.filt g.cols.filt
  simp only [Nat.zero_add, List.map_id'] at hblocks
  rw [← hblocks, window]
  simp only [SProd.sprod, List.product, List.map_flatMap, List.map_map, Function.comp_def,
    weightOffset_alone]

theorem getElem?_window {k : Nat × Nat} (hk : k ∈ g.window) :
    g.window[g.alone.weightOffset 0 0 k]? = some k := by
  obtain ⟨i, hi, rfl⟩ := List.getElem_of_mem hk
  have hplace : (g.window.map (g.alone.weightOffset 0 0))[i]? = some i := by
    have hlt : i < g.rows.filt * g.cols.filt := by
      rwa [← List.length_range (n := g.rows.filt * g.cols.filt), ← map_weightOffset_alone,
        List.length_map]
    rw [map_weightOffset_alone, List.getElem?_range hlt]
  rw [List.getElem?_map, List.getElem?_eq_getElem hi] at hplace
  rw [Option.some.inj hplace, List.getElem?_eq_getElem hi]

end Geometry

/-! ### The layer of one channel -/

/-- Readings that agree on every item agree on the list. -/
theorem mapM_congr {α β : Type} {f g : α → Option β} {l : List α} (h : ∀ a ∈ l, f a = g a) :
    l.mapM f = l.mapM g := by
  induction l with
  | nil => rfl
  | cons a l ih =>
      rw [List.mapM_cons, List.mapM_cons, h a List.mem_cons_self,
        ih fun b hb => h b (List.mem_cons_of_mem a hb)]

namespace Config

variable {D W P B A O : Type} (cfg : Config D W P B A O)

/-- The configuration with a single channel and a single filter. -/
def alone : Config D W P B A O where
  geometry := cfg.geometry.alone
  product := cfg.product
  accumulator := cfg.accumulator
  cast := cfg.cast
  valid := Geometry.validate_alone cfg.valid

section

variable (x : Operands cfg.geometry D W B) (c : Fin cfg.geometry.channels)
  (dm : Fin cfg.geometry.depthMultiplier)

theorem getElem?_windowWeights {k : Nat × Nat} (hk : k ∈ cfg.geometry.window) :
    (cfg.geometry.windowWeights x.weights c dm)[cfg.geometry.alone.weightOffset 0 0 k]? =
      x.weights[cfg.geometry.weightOffset c dm k]? := by
  rw [Geometry.windowWeights, List.getElem?_toArray,
    getElem?_filterMap fun _ => Geometry.exists_getElem?_weightOffset x c dm,
    Geometry.getElem?_window hk]
  rfl

theorem size_windowWeights :
    (cfg.geometry.windowWeights x.weights c dm).size =
      cfg.geometry.rows.filt * cfg.geometry.cols.filt := by
  rw [Geometry.windowWeights, List.size_toArray,
    length_filterMap fun _ => Geometry.exists_getElem?_weightOffset x c dm,
    Geometry.length_window]

/-- **The element of a channel on its own** is the one of the layer. -/
theorem element?_alone (h w : Nat) :
    cfg.alone.element? (strand cfg.geometry.channels c x.input)
        (cfg.geometry.windowWeights x.weights c dm)
        (x.biases[cfg.geometry.filterBank.channel c dm]?).toArray h w 0 0 =
      cfg.element? x.input x.weights x.biases h w c dm := by
  have hproduct : ∀ k ∈ cfg.geometry.window,
      cfg.alone.product? (strand cfg.geometry.channels c x.input)
        (cfg.geometry.windowWeights x.weights c dm) h w 0 0 k =
        cfg.product? x.input x.weights h w c dm k := by
    intro k hk
    have hsample := getElem?_strand c.isLt x.input_size (cfg.geometry.alone.sampleOffset h w 0 k)
    rw [← Geometry.sampleOffset_alone] at hsample
    have hweight := cfg.getElem?_windowWeights x c dm hk
    simp only [product?]
    rw [show cfg.alone.geometry = cfg.geometry.alone from rfl, hsample, hweight]
    rfl
  have hproducts := mapM_congr (l := cfg.geometry.window.filter (cfg.geometry.Covers h w))
    fun k hk => hproduct k (List.mem_of_mem_filter hk)
  have hbias : x.biases[c * cfg.geometry.depthMultiplier + dm]? = some (x.bias c dm) :=
    x.getElem?_bias c dm
  have hone : (some (x.bias c dm)).toArray[0 * cfg.alone.geometry.depthMultiplier + 0]? =
      some (x.bias c dm) := by
    rw [Nat.zero_mul]
    rfl
  rw [x.getElem?_bias c dm]
  simp only [element?, hbias, hone, Option.bind_eq_bind, Option.bind_some, ← hproducts]
  rfl

end

variable {input : Array D} {weights : Array W} {biases : Array B} {output : Array O}
  (lens : cfg.geometry.checkOperands input.size weights.size biases.size output.size = .ok ())
  {c dm : Nat} (hc : c < cfg.geometry.channels) (hd : dm < cfg.geometry.depthMultiplier)

include lens hc hd

/-- The strand, the window and the bias have the lengths the single channel asks for. -/
theorem checkOperands_alone {out : Array O}
    (hout : out.size = cfg.geometry.rows.out * cfg.geometry.cols.out) :
    cfg.alone.geometry.checkOperands (strand cfg.geometry.channels c input).size
      (cfg.geometry.windowWeights weights c dm).size
      (biases[cfg.geometry.filterBank.channel c dm]?).toArray.size out.size = .ok () := by
  let x := cfg.operands lens
  have hbias : biases[cfg.geometry.filterBank.channel c dm]? = some (x.bias ⟨c, hc⟩ ⟨dm, hd⟩) :=
    x.getElem?_bias ⟨c, hc⟩ ⟨dm, hd⟩
  have hv := cfg.alone.valid
  have hsamples : (strand cfg.geometry.channels c input).size = _ := size_strand hc x.input_size
  have hweights : (cfg.geometry.windowWeights weights c dm).size = _ :=
    cfg.size_windowWeights x ⟨c, hc⟩ ⟨dm, hd⟩
  rw [Geometry.checkOperands_eq_ok, (Geometry.inputMap_count hv).2,
    (Geometry.filterBank_count hv).2, (Geometry.outputMap_count hv).2, hsamples, hweights, hout, hbias,
    Geometry.filterBank_count_eq (Nat.dvd_refl 1)]
  exact ⟨Nat.mul_one _, Nat.mul_one _, rfl, Nat.mul_one _⟩

/-- The output of the layer of one channel is the strand of the output channel. -/
theorem strand_output {out : Array O}
    (hout : out.size = cfg.geometry.rows.out * cfg.geometry.cols.out) :
    strand cfg.geometry.filters (cfg.geometry.filterBank.channel c dm)
        (cfg.compute input weights biases output).output =
      (cfg.alone.compute (strand cfg.geometry.channels c input)
        (cfg.geometry.windowWeights weights c dm)
        (biases[cfg.geometry.filterBank.channel c dm]?).toArray out).output := by
  have lens' := cfg.checkOperands_alone lens hc hd hout
  have hchannel := Geometry.channel_lt_filters cfg.valid hc hd
  have hsize := cfg.size_compute lens
  refine Array.ext_getElem? fun i => ?_
  rcases Nat.lt_or_ge i cfg.alone.geometry.outputMap.count with hi | hi
  · obtain ⟨h, w, c', dm', hh, hw, hc', hd', rfl⟩ :=
      Geometry.exists_outputOffset_eq cfg.alone.valid hi
    obtain rfl := Nat.lt_one_iff.mp hc'
    obtain rfl := Nat.lt_one_iff.mp (Nat.lt_of_lt_of_eq hd' Geometry.depthMultiplier_alone)
    calc (strand _ _ _)[cfg.geometry.alone.outputOffset h w 0 0]?
      _ = (cfg.compute input weights biases output).output[
            cfg.geometry.outputOffset h w c dm]? := by
          rw [getElem?_strand hchannel hsize, ← Geometry.outputOffset_alone]
      _ = cfg.element? input weights biases h w c dm :=
          cfg.getElem?_outputOffset lens hh hw hc hd
      _ = cfg.alone.element? _ _ _ h w 0 0 :=
          (cfg.element?_alone (cfg.operands lens) ⟨c, hc⟩ ⟨dm, hd⟩ h w).symm
      _ = _ := (cfg.alone.getElem?_outputOffset lens' hh hw hc' hd').symm
  · have hstrand := size_strand hchannel hsize
    have hcount : cfg.geometry.rows.out * cfg.geometry.cols.out ≤ i :=
      Nat.le_trans (Nat.le_of_eq (Nat.mul_one _).symm) hi
    rw [Array.getElem?_eq_none (hstrand ▸ hcount),
      Array.getElem?_eq_none (cfg.alone.size_compute lens' ▸ hi)]

/-- **The depth multiplier law.**  The geometry with a single channel is valid.  Run on the strand
of input channel `c`, with the window and the bias of depth `dm`, it leaves the strand of output
channel `c * depthMultiplier + dm`.  So that strand stays as it is whatever else changes: the
samples of other channels, the weights of other windows, the other biases. -/
theorem compute_strand :
    cfg.geometry.alone.validate = .ok () ∧
      (∀ out : Array O, out.size = cfg.geometry.rows.out * cfg.geometry.cols.out →
        let run := cfg.alone.compute (strand cfg.geometry.channels c input)
          (cfg.geometry.windowWeights weights c dm)
          (biases[c * cfg.geometry.depthMultiplier + dm]?).toArray out
        run.result = .ok () ∧
          strand cfg.geometry.filters (c * cfg.geometry.depthMultiplier + dm)
            (cfg.compute input weights biases output).output = run.output) ∧
      ∀ (input' : Array D) (weights' : Array W) (biases' : Array B) (output' : Array O),
        cfg.geometry.checkOperands input'.size weights'.size biases'.size output'.size = .ok () →
        (∀ i, i % cfg.geometry.channels = c → input'[i]? = input[i]?) →
        (∀ k ∈ cfg.geometry.window,
          weights'[cfg.geometry.weightOffset c dm k]? =
            weights[cfg.geometry.weightOffset c dm k]?) →
        biases'[c * cfg.geometry.depthMultiplier + dm]? =
          biases[c * cfg.geometry.depthMultiplier + dm]? →
        strand cfg.geometry.filters (c * cfg.geometry.depthMultiplier + dm)
            (cfg.compute input' weights' biases' output').output =
          strand cfg.geometry.filters (c * cfg.geometry.depthMultiplier + dm)
            (cfg.compute input weights biases output).output := by
  refine ⟨Geometry.validate_alone cfg.valid, fun out hout => ⟨?_, ?_⟩, ?_⟩
  · exact congrArg Run.result (cfg.alone.compute_of_ok (cfg.checkOperands_alone lens hc hd hout))
  · exact cfg.strand_output lens hc hd hout
  · intro input' weights' biases' output' lens' hinput hweights hbiases
    -- any buffer will do for the layer of one channel, so the strand itself is taken
    have hout := size_strand (Geometry.channel_lt_filters cfg.valid hc hd) (cfg.size_compute lens)
    have hsamples : strand cfg.geometry.channels c input' = strand cfg.geometry.channels c input :=
      strand_congr hc (cfg.operands lens).input_size (cfg.operands lens').input_size hinput
    have hwindow : cfg.geometry.windowWeights weights' c dm =
        cfg.geometry.windowWeights weights c dm :=
      congrArg List.toArray (List.filterMap_congr hweights)
    have hbias : biases'[cfg.geometry.filterBank.channel c dm]? =
        biases[cfg.geometry.filterBank.channel c dm]? := hbiases
    have hleft := cfg.strand_output lens' hc hd hout
    rw [hsamples, hwindow, hbias] at hleft
    exact hleft.trans (cfg.strand_output lens hc hd hout).symm

end Config

/-- Depth 1 of channel 1 of the layer with its windows far apart is a layer of six samples, four
weights and one bias.  The first sample of the input, which is one of channel 0, has no part in
it. -/
theorem strand_farApart :
    Geometry.farApart.checkOperands 12 16 4 24 = .ok () ∧
      let strandOf (input : Array Int) :=
        strand 4 3 (Config.farApart.compute input (countUp 16) (countUp 4) (countUp 24)).output
      strandOf (countUp 12) =
          (Config.farApart.alone.compute #[1, 3, 5, 7, 9, 11] #[9, 11, 13, 15] #[3]
            (countUp 6)).output ∧
        strandOf ((countUp 12).setIfInBounds 0 100) = strandOf (countUp 12) := by
  have lens : Geometry.farApart.checkOperands (countUp 12).size (countUp 16).size (countUp 4).size
      (countUp 24).size = .ok () := rfl
  have hc : 1 < Geometry.farApart.channels := by decide
  have hd : 1 < Geometry.farApart.depthMultiplier := by decide
  obtain ⟨-, hrun, hsame⟩ := Config.farApart.compute_strand lens hc hd
  have hsamples : strand 2 1 (countUp 12) = #[1, 3, 5, 7, 9, 11] := by decide +kernel
  have hwindow : Geometry.farApart.windowWeights (countUp 16) 1 1 = #[9, 11, 13, 15] := by
    decide +kernel
  obtain ⟨-, hout⟩ := hrun (countUp 6) rfl
  refine ⟨lens, hout.trans ?_, hsame _ _ _ _ rfl (fun i hi => ?_) (fun _ _ => rfl) rfl⟩
  · show (Config.farApart.alone.compute (strand 2 1 (countUp 12)) _ #[3] _).output = _
    rw [hsamples, ← hwindow]
    rfl
  · have hodd : i % 2 = 1 := hi
    exact Array.getElem?_setIfInBounds_ne (by omega)

end Depthwise
