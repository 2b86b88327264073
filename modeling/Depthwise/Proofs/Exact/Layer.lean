import Depthwise.Proofs.Exact.Arithmetic
import Depthwise.Proofs.Kernel.Output
import Depthwise.Reference.Layer

/-!
# The fixed-point layer against exact arithmetic

The reference element (`Geometry.exactElement?`) is computed in rational numbers and visits every
cell of its window: a cell in the padding counts as the sample zero.  Only what the formats ask for
is rounded, the bias and each partial sum to the accumulator, the last one to the result.

The kernel skips the padding and keeps mantissas that saturate.  Where there is headroom it computes
the same element (`compute_eq_exactElement?`), in every rounding and overflow mode.
-/

namespace Depthwise

namespace Geometry

variable (g : Geometry)

/-- The exact product at cell `k` of the window at `(h, w)`, the padding being zero. -/
def exactProduct? (input weights : Array Fixed) (h w c dm : Nat) (k : Nat × Nat) : Option ℚ := do
  let d ← if g.Covers h w k then (input[g.sampleOffset h w c k]?).map Fixed.toRat else some 0
  let v ← weights[g.weightOffset c dm k]?
  return d * v.toRat

/-- The output element at pixel `(h, w)`, of depth `dm` of channel `c`, in exact arithmetic. -/
def exactElement? (accum result : Precision) (input weights biases : Array Fixed)
    (h w c dm : Nat) : Option Fixed := do
  let bias ← biases[c * g.depthMultiplier + dm]?
  let products ← g.window.mapM (g.exactProduct? input weights h w c dm)
  return result.quantize (products.foldl (fun s q => (accum.quantize (s + q)).toRat)
    (accum.quantize bias.toRat).toRat)

variable {g}

/-- A cell in the padding contributes nothing. -/
theorem exactProduct?_of_not_covers {D B : Type} (x : Operands g D Fixed B) (input : Array Fixed)
    (r : Replica g) {k : Nat × Nat} (hk : k ∈ g.window) (hc : ¬ g.Covers r.h r.w k) :
    g.exactProduct? input x.weights r.h r.w r.c r.dm k = some 0 := by
  obtain ⟨v, hv⟩ := exists_getElem?_weightOffset x r.c r.dm hk
  rw [exactProduct?, if_neg hc, hv]
  exact congrArg some (zero_mul _)

end Geometry

namespace ReferenceLayer

variable {layer : ReferenceLayer} {data weight bias accum result : Precision}

open Precision (Headroom)

theorem exactProduct?_of_product? (room : Headroom data weight accum) {input weights : Array Fixed}
    (hinput : ∀ d ∈ input, data.Stores d) (hweights : ∀ v ∈ weights, weight.Stores v)
    {h w c dm : Nat} {k : Nat × Nat} (hk : layer.geometry.Covers h w k) {p : Fixed}
    (hp : (layer.fixedConfig accum result).product? input weights h w c dm k = some p) :
    ∃ q, layer.geometry.exactProduct? input weights h w c dm k = some q ∧
      accum.Admits p ∧ q = p.toRat := by
  obtain ⟨d, hd, hp⟩ := Option.bind_eq_some_iff.mp hp
  obtain ⟨v, hv, hp⟩ := Option.bind_eq_some_iff.mp hp
  obtain rfl : d * v = p := Option.some.inj hp
  obtain ⟨hadmits, hexact⟩ := Precision.admits_mul room (hinput d (Array.mem_of_getElem? hd))
    (hweights v (Array.mem_of_getElem? hv))
  refine ⟨_, ?_, hadmits, rfl⟩
  rw [Geometry.exactProduct?, if_pos hk, hexact]
  simp only [fixedConfig] at hd hv
  rw [hd, hv]
  rfl

/-- **The element of a replica is the exact one.** -/
theorem exactElement?_replica (room : Headroom data weight accum)
    (x : Operands layer.geometry Fixed Fixed Fixed) (hinput : ∀ d ∈ x.input, data.Stores d)
    (hweights : ∀ v ∈ x.weights, weight.Stores v) (hbiases : ∀ b ∈ x.biases, bias.Stores b)
    (r : Replica layer.geometry) :
    layer.geometry.exactElement? accum result x.input x.weights x.biases r.h r.w r.c r.dm =
      some (result.store ((layer.fixedConfig accum result).slot x r)) := by
  have helement := (layer.fixedConfig accum result).element?_replica x r
  obtain ⟨b, hb, helement⟩ := Option.bind_eq_some_iff.mp helement
  obtain ⟨products, hproducts, hslot⟩ := Option.bind_eq_some_iff.mp helement
  obtain ⟨exacts, hexacts, hfilled⟩ := mapM_filled layer.geometry.window
    (fun _ _ hk _ hp => exactProduct?_of_product? room hinput hweights hk hp)
    (fun k hk hc => Geometry.exactProduct?_of_not_covers x x.input r hk hc) hproducts
  have hbias := Precision.store_of_stores (p := accum) (hbiases b (Array.mem_of_getElem? hb))
  obtain ⟨hexact, hstores⟩ := Precision.foldl_store_eq hfilled _ (accum.stores_store b)
  have hcast : layer.geometry.exactElement? accum result x.input x.weights x.biases
      r.h r.w r.c r.dm = some (result.quantize (exacts.foldl
        (fun s q => (accum.quantize (s + q)).toRat) (accum.quantize b.toRat).toRat)) := by
    simp only [fixedConfig] at hb
    rw [Geometry.exactElement?, hb, hexacts]
    rfl
  rw [hcast, ← hbias, hexact, ← Precision.store_of_stores hstores]
  exact hslot

variable (layer) (result) {input weights biases output : Array Fixed}

/-- **The fixed-point layer is exact**: on stored operands with headroom it succeeds, and every
output element is the one of exact arithmetic over the zero-padded input. -/
theorem compute_eq_exactElement? (room : Headroom data weight accum)
    (lens : layer.geometry.checkOperands input.size weights.size biases.size output.size = .ok ())
    (hinput : ∀ d ∈ input, data.Stores d) (hweights : ∀ v ∈ weights, weight.Stores v)
    (hbiases : ∀ b ∈ biases, bias.Stores b) :
    let run := (layer.fixedConfig accum result).compute input weights biases output
    run.result = .ok () ∧
      (∀ h w c dm, h < layer.geometry.rows.out → w < layer.geometry.cols.out →
        c < layer.geometry.channels → dm < layer.geometry.depthMultiplier →
        ∃ o, layer.geometry.exactElement? accum result input weights biases h w c dm = some o ∧
          run.output[layer.geometry.outputOffset h w c dm]? = some o) ∧
      ∀ i < run.output.size, ∃ h w c dm,
        h < layer.geometry.rows.out ∧ w < layer.geometry.cols.out ∧ c < layer.geometry.channels ∧
          dm < layer.geometry.depthMultiplier ∧ i = layer.geometry.outputOffset h w c dm := by
  refine ⟨?_, ?_, ?_⟩
  · rw [Config.compute_of_ok (layer.fixedConfig accum result) lens]
  · intro h w c dm hh hw hc hd
    let r : Replica layer.geometry := ⟨⟨h, hh⟩, ⟨w, hw⟩, ⟨c, hc⟩, ⟨dm, hd⟩⟩
    let x := (layer.fixedConfig accum result).operands lens
    exact ⟨_, exactElement?_replica room x hinput hweights hbiases r,
      (layer.fixedConfig accum result).getElem?_compute lens r⟩
  · intro i hi
    rw [(layer.fixedConfig accum result).size_compute lens] at hi
    exact Geometry.exists_outputOffset_eq layer.valid hi

/-! ### A layer of halves -/

/-- The layer with its windows far apart. -/
def farApart : ReferenceLayer := ⟨Geometry.farApart, Geometry.validate_farApart⟩

/-- `n` halves that follow each other. -/
def halvesFrom (first : ℤ) (n : ℕ) : Array Fixed :=
  ((List.range n).map fun (k : ℕ) => Fixed.mk (first + k) 1).toArray

/-- The run of that layer on halves, its sums going to even at ties and its results wrapping. -/
def halvesConfig : Config Fixed Fixed Fixed Fixed Fixed Fixed :=
  farApart.fixedConfig (Precision.symmetricHalves.withRounding .nearestEven)
    (Precision.symmetricHalves.withOverflow .wrap)

/-- The output of depth 0 of channel 1 at pixel `(1, 0)`.  The left cells of its window lie in the
padding, and the products of the others are `6.25` and `-0.25`.  To the bias 1 the first is added
as `3.5`, the greatest half, and with the second the sum is `3.25`, which goes to `3`. -/
theorem exactElement?_halves :
    Headroom .symmetricHalves .symmetricHalves
        (Precision.symmetricHalves.withRounding .nearestEven) ∧
      Geometry.farApart.checkOperands 12 16 4 24 = .ok () ∧
      (∀ d ∈ halvesFrom (-6) 12, Precision.symmetricHalves.Stores d) ∧
      (∀ v ∈ halvesFrom (-8) 16, Precision.symmetricHalves.Stores v) ∧
      (∀ b ∈ halvesFrom 0 4, Precision.symmetricHalves.Stores b) ∧
      Geometry.farApart.exactElement? (Precision.symmetricHalves.withRounding .nearestEven)
        (Precision.symmetricHalves.withOverflow .wrap) (halvesFrom (-6) 12) (halvesFrom (-8) 16)
        (halvesFrom 0 4) 1 0 1 0 = some ⟨6, 1⟩ ∧
      (halvesConfig.compute (halvesFrom (-6) 12) (halvesFrom (-8) 16) (halvesFrom 0 4)
        (halvesFrom 0 24)).output[14]? = some ⟨6, 1⟩ := by
  have lens : Geometry.farApart.checkOperands (halvesFrom (-6) 12).size (halvesFrom (-8) 16).size
      (halvesFrom 0 4).size (halvesFrom 0 24).size = .ok () := rfl
  have room : Headroom .symmetricHalves .symmetricHalves
      (Precision.symmetricHalves.withRounding .nearestEven) :=
    Precision.headroom_of_frac_nonneg (by decide) (by decide) (by decide)
  have hinput : ∀ d ∈ halvesFrom (-6) 12, Precision.symmetricHalves.Stores d := by decide
  have hweights : ∀ v ∈ halvesFrom (-8) 16, Precision.symmetricHalves.Stores v := by decide
  have hbiases : ∀ b ∈ halvesFrom 0 4, Precision.symmetricHalves.Stores b := by decide
  obtain ⟨-, hout, -⟩ := farApart.compute_eq_exactElement?
    (Precision.symmetricHalves.withOverflow .wrap) room lens hinput hweights hbiases
  obtain ⟨o, hexact, hcompute⟩ := hout 1 0 1 0 (by decide) (by decide) (by decide) (by decide)
  -- the kernel leaves the element read off the buffers at the place of its replica
  let r : Replica Geometry.farApart :=
    ⟨⟨1, by decide⟩, ⟨0, by decide⟩, ⟨1, by decide⟩, ⟨0, by decide⟩⟩
  have helement : halvesConfig.element? (halvesFrom (-6) 12) (halvesFrom (-8) 16)
      (halvesFrom 0 4) 1 0 1 0 = some ⟨6, 1⟩ := by decide +kernel
  have hslot := halvesConfig.element?_replica (halvesConfig.operands lens) r
  have hplace := (halvesConfig.getElem?_compute lens r).trans (hslot.symm.trans helement)
  exact ⟨room, lens, hinput, hweights, hbiases, hexact.trans (hcompute.symm.trans hplace), hplace⟩

end ReferenceLayer

end Depthwise
