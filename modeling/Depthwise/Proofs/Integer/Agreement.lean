import Depthwise.Proofs.Integer.Layer
import Depthwise.Proofs.Kernel.Interchange
import Mathlib.Data.Int.ModEq
import Mathlib.Tactic.Ring

/-!
# Counting agreement

With binary samples and binary weights the kernel counts how many operands of a window agree.  The
plain kernel on the signs that they stand for computes agreements less disagreements.  Padding is
neither, so over a window with `n` cells in the input the one count determines the other:

  `2 * (x - b) = n + (p - b)`

where `b` is the bias, `x` what is counted and `p` what is multiplied, all of it in words of 32 bits.
At the border `n` is less than the size of the window, and it differs from place to place.

`Config.compute_agreement`: this holds at every place of the output, for both runs on any operands.
-/

namespace Depthwise

/-! ### Agreements and disagreements -/

/-- The number of pairs whose sample and weight agree. -/
def agreements (ps : List (Bool × Bool)) : ℕ := ps.countP fun t => t.1 = t.2

/-- The number of pairs whose sample and weight do not agree. -/
def disagreements (ps : List (Bool × Bool)) : ℕ := ps.countP fun t => t.1 ≠ t.2

theorem agreements_cons (t : Bool × Bool) (ps : List (Bool × Bool)) :
    agreements (t :: ps) = agreements ps + if t.1 = t.2 then 1 else 0 := by
  simp [agreements, List.countP_cons]

theorem disagreements_cons (t : Bool × Bool) (ps : List (Bool × Bool)) :
    disagreements (t :: ps) = disagreements ps + if t.1 = t.2 then 0 else 1 := by
  simp [disagreements, List.countP_cons]

theorem agreements_add_disagreements (ps : List (Bool × Bool)) :
    agreements ps + disagreements ps = ps.length := by
  induction ps with
  | nil => rfl
  | cons t ps ih =>
      rw [agreements_cons, disagreements_cons, List.length_cons]
      split <;> omega

/-! ### The two products -/

/-- The byte that a binary operand stands for. -/
def signByte (b : Bool) : Int8 := Int8.ofInt (signOf b)

/-- The plain product of the bytes that two binary operands stand for. -/
def signProduct (d w : Bool) : Int32 :=
  plainProduct Int8.toInt32 Int8.toInt32 (signByte d) (signByte w)

theorem toInt_agreement (d w : Bool) : (agreement d w).toInt = if d = w then 1 else 0 := by
  cases d <;> cases w <;> rfl

theorem toInt_signProduct (d w : Bool) : (signProduct d w).toInt = if d = w then 1 else -1 := by
  cases d <;> cases w <;> rfl

theorem sum_agreement (ps : List (Bool × Bool)) :
    (ps.map fun t => (agreement t.1 t.2).toInt).sum = agreements ps := by
  induction ps with
  | nil => rfl
  | cons t ps ih =>
      rw [List.map_cons, List.sum_cons, ih, toInt_agreement, agreements_cons]
      split <;> omega

theorem sum_signProduct (ps : List (Bool × Bool)) :
    (ps.map fun t => (signProduct t.1 t.2).toInt).sum = agreements ps - disagreements ps := by
  induction ps with
  | nil => rfl
  | cons t ps ih =>
      rw [List.map_cons, List.sum_cons, ih, toInt_signProduct, agreements_cons, disagreements_cons]
      split <;> omega

/-! ### The two kernels -/

/-- The channel and the depth of an output channel. -/
theorem Geometry.channel_div_mod {g : Geometry} (hv : g.validate = .ok ()) {k : ℕ}
    (hk : k < g.filters) :
    k / g.depthMultiplier < g.channels ∧ k % g.depthMultiplier < g.depthMultiplier ∧
      g.filterBank.channel (k / g.depthMultiplier) (k % g.depthMultiplier) = k := by
  rw [← filters_eq hv] at hk
  have hd : 0 < g.depthMultiplier := Nat.pos_of_ne_zero fun hzero => by simp [hzero] at hk
  exact ⟨Nat.div_lt_of_lt_mul (Nat.mul_comm g.channels _ ▸ hk), Nat.mod_lt k hd,
    Nat.div_add_mod' k _⟩

namespace Config

/-- Sums in words of 32 bits, as they are. -/
def words {D W : Type} (g : Geometry) (valid : g.validate = .ok ()) (product : D → W → Int32) :
    Config D W Int32 Int32 Int32 Int32 where
  geometry := g
  product := product
  accumulator := .native false id id
  cast := id
  valid := valid

variable {D W : Type} {g : Geometry} (valid : g.validate = .ok ())

theorem slot_words_modEq (product : D → W → Int32) (x : Operands g D W Int32) (r : Replica g) :
    ((words g valid product).slot x r).toInt ≡
      (x.bias r.c r.dm).toInt + ((x.pairs r).map fun t => (product t.1 t.2).toInt).sum
        [ZMOD 2 ^ 32] := by
  have hwraps : (words g valid product).accumulator.Wraps 32 Int32.toInt Int32.toInt Int32.toInt :=
    Accumulator.wraps_native word_int32 (fun _ => rfl) (fun _ => rfl) false
  have hproducts := (words g valid product).products_eq_map_pairs x r
  rw [(words g valid product).value_slot x r hwraps, hproducts, List.map_map]
  exact Int.bmod_emod

/-- The slot that counts agreement. -/
theorem slot_agreement_modEq (x : Operands g Bool Bool Int32) (r : Replica g) :
    ((words g valid agreement).slot x r).toInt ≡
      (x.bias r.c r.dm).toInt + agreements (x.pairs r) [ZMOD 2 ^ 32] := by
  have hslot := slot_words_modEq valid agreement x r
  rwa [sum_agreement] at hslot

/-- The slot that sums the products of signs. -/
theorem slot_signProduct_modEq (x : Operands g Bool Bool Int32) (r : Replica g) :
    ((words g valid signProduct).slot x r).toInt ≡
      (x.bias r.c r.dm).toInt + (agreements (x.pairs r) - disagreements (x.pairs r))
        [ZMOD 2 ^ 32] := by
  have hslot := slot_words_modEq valid signProduct x r
  rwa [sum_signProduct] at hslot

/-- Twice the agreements are all cells in the input and the agreements less the disagreements. -/
theorem twice_slot_agreement_modEq (x : Operands g Bool Bool Int32) (r : Replica g) :
    2 * (((words g valid agreement).slot x r).toInt - (x.bias r.c r.dm).toInt) ≡
      (g.window.filter (g.Covers r.h r.w)).length +
        (((words g valid signProduct).slot x r).toInt - (x.bias r.c r.dm).toInt)
        [ZMOD 2 ^ 32] := by
  have hcounted := slot_agreement_modEq valid x r
  have hmultiplied := slot_signProduct_modEq valid x r
  have hcells : (agreements (x.pairs r) + disagreements (x.pairs r) : ℤ) =
      (g.window.filter (g.Covers r.h r.w)).length := by
    rw [← Nat.cast_add, agreements_add_disagreements, x.length_pairs r]
  rw [← hcells]
  generalize (x.bias r.c r.dm).toInt = b at hcounted hmultiplied ⊢
  generalize (agreements (x.pairs r) : ℤ) = a at hcounted hmultiplied ⊢
  generalize (disagreements (x.pairs r) : ℤ) = d at hmultiplied ⊢
  calc
    _ ≡ 2 * (b + a - b) [ZMOD 2 ^ 32] := (hcounted.sub_right b).mul_left 2
    _ = a + d + (b + (a - d) - b) := by ring
    _ ≡ _ [ZMOD 2 ^ 32] := (hmultiplied.symm.sub_right b).add_left _

/-- The plain run on the bytes is a run on the binary operands, so that both runs are over the same
pairs. -/
theorem compute_signProduct (input weights : Array Bool) (biases output : Array Int32) :
    (words g valid signProduct).compute input weights biases output =
      (words g valid (plainProduct Int8.toInt32 Int8.toInt32)).compute (input.map signByte)
        (weights.map signByte) biases output :=
  (words g valid signProduct).compute_of_interchanges fun _ _ _ _ => .of_eq rfl

/-- **Agreement and the product of signs.**  The run that counts agreement and the plain run on the
bytes that the operands stand for both succeed.  At every place of the output, let `ps` be the pairs
of operands over the `n` cells of its window that lie in the input: the one run leaves the bias and
the agreements among `ps`, the other the bias and the agreements less the disagreements, modulo
`2 ^ 32`.  There are `n` of both together, so that either result determines twice the other. -/
theorem compute_agreement {input weights : Array Bool} {biases output output' : Array Int32}
    (lens : g.checkOperands input.size weights.size biases.size output.size = .ok ())
    (hsize : output'.size = output.size) :
    let counted := (words g valid agreement).compute input weights biases output
    let multiplied := (words g valid (plainProduct Int8.toInt32 Int8.toInt32)).compute
      (input.map signByte) (weights.map signByte) biases output'
    counted.result = .ok () ∧ multiplied.result = .ok () ∧
      ∀ h w k, h < g.rows.out → w < g.cols.out → k < g.filters →
        let cells := g.window.filter (g.Covers h w)
        ∃ ps x p b,
          cells.mapM (g.operands? input weights h w (k / g.depthMultiplier)
            (k % g.depthMultiplier)) = some ps ∧
          counted.output[g.outputMap.index h w k]? = some x ∧
          multiplied.output[g.outputMap.index h w k]? = some p ∧ biases[k]? = some b ∧
          x.toInt ≡ b.toInt + agreements ps [ZMOD 2 ^ 32] ∧
          p.toInt ≡ b.toInt + (agreements ps - disagreements ps) [ZMOD 2 ^ 32] ∧
          2 * (x.toInt - b.toInt) ≡ cells.length + (p.toInt - b.toInt) [ZMOD 2 ^ 32] := by
  have lens' : g.checkOperands input.size weights.size biases.size output'.size = .ok () :=
    hsize ▸ lens
  intro counted multiplied
  have hmultiplied : (words g valid signProduct).compute input weights biases output' =
      multiplied := compute_signProduct valid input weights biases output'
  refine ⟨((words g valid agreement).result_compute _ _ _ _).trans lens, ?_, ?_⟩
  · rw [← hmultiplied]
    exact ((words g valid signProduct).result_compute _ _ _ _).trans lens'
  · intro h w k hh hw hk cells
    obtain ⟨hc, hd, hchannel⟩ := Geometry.channel_div_mod valid hk
    let x : Operands g Bool Bool Int32 := (words g valid agreement).operands lens
    let r : Replica g := ⟨⟨h, hh⟩, ⟨w, hw⟩, ⟨_, hc⟩, ⟨_, hd⟩⟩
    have hindex : r.index = g.outputMap.index h w k := congrArg (g.outputMap.index h w) hchannel
    have hbias := x.getElem?_bias r.c r.dm
    rw [hchannel] at hbias
    refine ⟨x.pairs r, (words g valid agreement).slot x r, (words g valid signProduct).slot x r,
      x.bias r.c r.dm, x.mapM_operands? r, ?_, ?_, hbias, slot_agreement_modEq valid x r,
      slot_signProduct_modEq valid x r, twice_slot_agreement_modEq valid x r⟩
    · rw [← hindex]
      exact (words g valid agreement).getElem?_compute lens r
    · rw [← hindex, ← hmultiplied]
      exact (words g valid signProduct).getElem?_compute lens' r

/-- On the layer that overhangs its input, two of the six cells of the window at `(1, 1)` lie in the
input.  One pair agrees and the other does not; with the greatest bias the count wraps. -/
theorem compute_agreement_overhanging :
    let input := #[true, true, true, false]
    let weights := Array.replicate 12 true
    let biases : Array Int32 := #[0, 2147483647]
    let output : Array Int32 := Array.replicate 8 0
    let output' : Array Int32 := Array.replicate 8 (-1)
    let counted := (words _ Geometry.validate_overhanging agreement).compute input weights biases
      output
    let multiplied := (words _ Geometry.validate_overhanging
      (plainProduct Int8.toInt32 Int8.toInt32)).compute (input.map signByte) (weights.map signByte)
        biases output'
    Geometry.overhanging.checkOperands 4 12 2 8 = .ok () ∧ output'.size = output.size ∧
      (Geometry.overhanging.window.filter (Geometry.overhanging.Covers 1 1)).length = 2 ∧
      counted.output[7]? = some (-2147483648 : Int32) ∧
      multiplied.output[7]? = some (2147483647 : Int32) ∧
      2 * (-2147483648 - 2147483647) ≡ 2 + (2147483647 - 2147483647) [ZMOD 2 ^ 32] := by
  intro input weights biases output output' counted multiplied
  have lens : Geometry.overhanging.checkOperands input.size weights.size biases.size output.size =
      .ok () := rfl
  have hsize : output'.size = output.size := rfl
  obtain ⟨-, -, hplaces⟩ := compute_agreement Geometry.validate_overhanging lens hsize
  obtain ⟨-, x, p, b, -, hx, hp, hb, -, -, htwice⟩ :=
    hplaces 1 1 1 (by decide) (by decide) (by decide)
  have hcells : (Geometry.overhanging.window.filter (Geometry.overhanging.Covers 1 1)).length =
      2 := by decide
  have hcounted : counted.output[7]? = some (-2147483648 : Int32) := by decide +kernel
  have hmultiplied : multiplied.output[7]? = some (2147483647 : Int32) := by decide +kernel
  obtain rfl : -2147483648 = x := Option.some.inj (hcounted.symm.trans hx)
  obtain rfl : 2147483647 = p := Option.some.inj (hmultiplied.symm.trans hp)
  obtain rfl : 2147483647 = b := Option.some.inj hb
  rw [hcells] at htwice
  exact ⟨lens, hsize, hcells, hcounted, hmultiplied, htwice⟩

end Config

end Depthwise
