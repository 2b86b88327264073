import Depthwise.Proofs.Integer.Machine
import Depthwise.Proofs.Integer.Padded

/-!
# Integer layers against the padded sum

Under a scheme that multiplies, with an accumulator of integers, the kernel computes the sums over
the padded input (`Geometry.paddedSum?`), brought back to the bits of the accumulator.

The kernel leaves the padding out, where the products of the sum are zero (`Filled.sum_eq`), and
brings back after every term, which is the same as once (`Accumulator.Wraps`).  So an output element
is determined modulo a power of two by the exact integer, also where windows overhang the input or a
trailing pad is not given.
-/

namespace Depthwise

/-- Zeros between the terms of a sum leave it as it is. -/
theorem Filled.sum_eq {P : Type} {integer : P → ℤ} {ps : List P} {ns : List ℤ}
    (h : Filled 0 (fun p n => integer p = n) ps ns) : ns.sum = (ps.map integer).sum := by
  induction h with
  | nil => rfl
  | read hn _ ih => rw [List.sum_cons, ih, ← hn, List.map_cons, List.sum_cons]
  | skip _ ih => rw [List.sum_cons, zero_add, ih]

namespace Config

variable {D W P B A O : Type} (cfg : Config D W P B A O) {x : D → ℤ} {v : W → ℤ} {y : B → ℤ}
  {z : P → ℤ} {value : A → ℤ} {bits : ℕ} (X : Operands cfg.geometry D W B)
  (r : Replica cfg.geometry) {k : Nat × Nat}

theorem paddedSample?_map (hk : k ∈ cfg.geometry.window) :
    cfg.geometry.paddedSample? (X.input.map x) r.h r.w r.c k =
      if cfg.geometry.Covers r.h r.w k then
        (X.input[cfg.geometry.sampleOffset r.h r.w r.c k]?).map x
      else some 0 := by
  have hsize : (X.input.map x).size = cfg.geometry.inputMap.count := by
    rw [Array.size_map, X.input_size]
  rw [Geometry.paddedSample?_eq hsize r.h.isLt r.w.isLt r.c.isLt hk, Array.getElem?_map]

/-- A cell in the padding contributes nothing to the sum. -/
theorem paddedProduct?_of_not_covers (hk : k ∈ cfg.geometry.window)
    (hc : ¬ cfg.geometry.Covers r.h r.w k) :
    cfg.geometry.paddedProduct? (X.input.map x) (X.weights.map v) r.h r.w r.c r.dm k = some 0 := by
  obtain ⟨weight, hweight⟩ := Geometry.exists_getElem?_weightOffset X r.c r.dm hk
  rw [Geometry.paddedProduct?, cfg.paddedSample?_map X r hk, if_neg hc, Array.getElem?_map, hweight]
  exact congrArg some (zero_mul (v weight))

/-- Elsewhere the product is the one the kernel forms. -/
theorem paddedProduct?_of_product? (hmul : ∀ d w, z (cfg.product d w) = x d * v w)
    (hk : k ∈ cfg.geometry.window) (hc : cfg.geometry.Covers r.h r.w k) {p : P}
    (hp : cfg.product? X.input X.weights r.h r.w r.c r.dm k = some p) :
    cfg.geometry.paddedProduct? (X.input.map x) (X.weights.map v) r.h r.w r.c r.dm k =
      some (z p) := by
  obtain ⟨d, hd, hp⟩ := Option.bind_eq_some_iff.mp hp
  obtain ⟨w, hw, hp⟩ := Option.bind_eq_some_iff.mp hp
  obtain rfl := Option.some.inj hp
  rw [Geometry.paddedProduct?, cfg.paddedSample?_map X r hk, if_pos hc, hd, Array.getElem?_map, hw,
    hmul]
  rfl

/-- A slot is the sum of its bias and its products, brought back to the bits of the accumulator. -/
theorem value_slot (hacc : cfg.accumulator.Wraps bits y z value) :
    value (cfg.slot X r) =
      (y (X.bias r.c r.dm) + ((cfg.products X r).map z).sum).bmod (2 ^ bits) := by
  rw [slot, hacc.foldl_accumulate, hacc.value_seed]

/-- **The slot of a replica is the padded sum**, brought back to the bits of the accumulator. -/
theorem paddedSum?_replica (hmul : ∀ d w, z (cfg.product d w) = x d * v w)
    (hacc : cfg.accumulator.Wraps bits y z value) :
    ∃ n, cfg.geometry.paddedSum? (X.input.map x) (X.weights.map v) (X.biases.map y)
        r.h r.w r.c r.dm = some n ∧ value (cfg.slot X r) = n.bmod (2 ^ bits) := by
  obtain ⟨ns, hns, hfilled⟩ := mapM_filled cfg.geometry.window
    (fun _ hk hc _ hp => ⟨_, cfg.paddedProduct?_of_product? X r hmul hk hc hp, rfl⟩)
    (fun _ hk hc => cfg.paddedProduct?_of_not_covers X r hk hc) (cfg.mapM_product? X r)
  have hbias : (X.biases.map y)[r.c * cfg.geometry.depthMultiplier + r.dm]? =
      some (y (X.bias r.c r.dm)) := by
    rw [Array.getElem?_map]
    exact congrArg (Option.map y) (X.getElem?_bias r.c r.dm)
  refine ⟨y (X.bias r.c r.dm) + ns.sum, ?_, ?_⟩
  · rw [Geometry.paddedSum?, hbias, hns]
    rfl
  · rw [cfg.value_slot X r hacc, hfilled.sum_eq]

end Config

/-- **The boundary law for integer layers.**  Whatever a scheme multiplies into machine integers has
such a product, which is exact, unless the operands are only compared; and machine integers of 32 or
64 bits that hold the biases and the products have an accumulator.  With them the run succeeds on
every valid geometry, every output element stands for the sum over the padded input, brought back to
the bits of the accumulator, and there is no other. -/
theorem Scheme.compute_eq_paddedSum? {s : Scheme} {data weight product bias sum : Element}
    (hs : (data, weight, product) ∈ s.signatures) (hboth : s ≠ .bothBinary)
    (hproduct : product = .int32 ∨ product = .int64)
    (hsum : sum = .int32 ∨ sum = .int64)
    (hadmits : (Accumulator.Kind.number sum).Admits bias product sum) :
    ∃ (mul : data.Value → weight.Value → product.Value)
      (acc : Accumulator bias.Value product.Value sum.Value) (x : data.Value → ℤ)
      (v : weight.Value → ℤ) (y : bias.Value → ℤ) (value : sum.Value → ℤ),
      s.product? data weight = some ⟨product, mul⟩ ∧
        (Accumulator.Kind.number sum).typed? bias product = some ⟨sum, acc⟩ ∧
        s.sample? data = some x ∧ s.weight? weight = some v ∧ bias.toInt? = some y ∧
        sum.toInt? = some value ∧ (sum.bits = 32 ∨ sum.bits = 64) ∧
        Typed.Multiplies ⟨product, mul⟩ x v ∧
        ∀ {g : Geometry} (valid : g.validate = .ok ()) {input : Array data.Value}
          {weights : Array weight.Value} {biases : Array bias.Value} {output : Array sum.Value},
          g.checkOperands input.size weights.size biases.size output.size = .ok () →
          let run := Config.compute ⟨g, mul, acc, id, valid⟩ input weights biases output
          run.result = .ok () ∧
            (∀ h w c dm, h < g.rows.out → w < g.cols.out → c < g.channels →
              dm < g.depthMultiplier →
              ∃ n o, g.paddedSum? (input.map x) (weights.map v) (biases.map y) h w c dm = some n ∧
                run.output[g.outputOffset h w c dm]? = some o ∧
                value o = n.bmod (2 ^ sum.bits)) ∧
            ∀ i < run.output.size, ∃ h w c dm, h < g.rows.out ∧ w < g.cols.out ∧
              c < g.channels ∧ dm < g.depthMultiplier ∧ i = g.outputOffset h w c dm := by
  obtain ⟨mul, ht⟩ := exists_product?_iff.mpr hs
  obtain ⟨acc, hacc⟩ := Accumulator.Kind.exists_typed?_iff.mpr hadmits
  obtain ⟨⟨x, hx⟩, v, hv⟩ := exists_operands hs hboth hproduct
  have hbias : bias ∈ sum.holds := by
    cases hadmits with
    | number _ hb _ => exact hb
  obtain ⟨y, hy⟩ := Element.exists_toInt? hsum hbias
  obtain ⟨value, hvalue⟩ : ∃ value, sum.toInt? = some value := by
    rcases hsum with rfl | rfl <;> exact ⟨_, rfl⟩
  obtain ⟨z, hz, hmul⟩ := multiplies_product? ht hx hv
  obtain ⟨hbits, hwraps⟩ := Accumulator.Kind.typed?_wraps hacc hy hz hvalue
  refine ⟨mul, acc, x, v, y, value, ht, hacc, hx, hv, hy, hvalue, hbits, ⟨z, hz, hmul⟩, ?_⟩
  intro g valid input weights biases output lens
  let cfg : Config data.Value weight.Value product.Value bias.Value sum.Value sum.Value :=
    ⟨g, mul, acc, id, valid⟩
  let X := cfg.operands lens
  refine ⟨?_, ?_, ?_⟩
  · rw [Config.compute_of_ok cfg lens]
  · intro h w c dm hh hw hc hd
    let r : Replica g := ⟨⟨h, hh⟩, ⟨w, hw⟩, ⟨c, hc⟩, ⟨dm, hd⟩⟩
    obtain ⟨n, hn, hslot⟩ := cfg.paddedSum?_replica X r hmul hwraps
    exact ⟨n, _, hn, cfg.getElem?_compute lens r, hslot⟩
  · intro i hi
    rw [cfg.size_compute lens] at hi
    exact Geometry.exists_outputOffset_eq valid hi

/-! ### A layer that overhangs and wraps -/

/-- Two rows and two columns with two filters.  The second row of windows starts on the last row of
the input and overhangs it by two; no trailing pad is given. -/
def Geometry.overhanging : Geometry where
  rows := { input := 2, filt := 3, stride := 2, out := 2, before := 1, after := none }
  cols := { input := 2, filt := 2, stride := 1, out := 2, before := 1, after := some 0 }
  channels := 1
  filters := 2

theorem Geometry.validate_overhanging : Geometry.overhanging.validate = .ok () := rfl

/-- That layer on numbers of 16 bits, summed in 32. -/
def Config.overhanging : Config Int16 Int16 Int32 Int32 Int32 Int32 where
  geometry := Geometry.overhanging
  product := plainProduct Int16.toInt32 Int16.toInt32
  accumulator := .native false id id
  cast := id
  valid := Geometry.validate_overhanging

/-- The output of depth 1 at pixel `(1, 1)`: two cells of its window lie in the input, and with the
least weight and the greatest sample the sum is one less than the least number of 32 bits. -/
theorem Scheme.compute_overhanging :
    (.int16, .int16, .int32) ∈ plain.signatures ∧
      (Accumulator.Kind.number .int32).Admits .int32 .int32 .int32 ∧
      Geometry.overhanging.checkOperands 4 12 2 8 = .ok () ∧
      Geometry.overhanging.paddedSum? (Array.replicate 4 32767) (Array.replicate 12 (-32768))
        (Array.replicate 2 (-65537)) 1 1 0 1 = some (-2147483649) ∧
      (Config.overhanging.compute (Array.replicate 4 32767) (Array.replicate 12 (-32768))
        (Array.replicate 2 (-65537)) (Array.replicate 8 0)).output[7]? = some 2147483647 := by
  have lens : Geometry.overhanging.checkOperands (Array.replicate 4 (32767 : Int16)).size
      (Array.replicate 12 (-32768 : Int16)).size (Array.replicate 2 (-65537 : Int32)).size
      (Array.replicate 8 (0 : Int32)).size = .ok () := rfl
  have hs : (.int16, .int16, .int32) ∈ plain.signatures := by decide
  have hadmits : (Accumulator.Kind.number .int32).Admits .int32 .int32 .int32 :=
    .number (by decide) (by decide) (by decide)
  obtain ⟨mul, acc, x, v, y, value, ht, hacc, hx, hv, hy, hvalue, -, -, hrun⟩ :=
    compute_eq_paddedSum? hs (by decide) (.inl rfl) (.inl rfl) hadmits
  cases ht
  cases hacc
  cases hx
  cases hv
  cases hy
  cases hvalue
  obtain ⟨-, hout, -⟩ := hrun Geometry.validate_overhanging lens
  obtain ⟨n, o, hn, ho, hvalue⟩ := hout 1 1 0 1 (by decide) (by decide) (by decide) (by decide)
  have hsum : Geometry.overhanging.paddedSum? (Array.replicate 4 32767)
      (Array.replicate 12 (-32768)) (Array.replicate 2 (-65537)) 1 1 0 1 =
        some (-2147483649) := by decide +kernel
  simp only [Array.map_replicate] at hn
  obtain rfl : -2147483649 = n := Option.some.inj (hsum.symm.trans hn)
  obtain rfl : o = 2147483647 := Int32.toInt_inj.mp hvalue
  exact ⟨hs, hadmits, lens, hsum, ho⟩

end Depthwise
