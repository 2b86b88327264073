import Depthwise.Proofs.Integer.Machine
import Depthwise.Proofs.Integer.Requantize
import Depthwise.Proofs.Kernel.Output
import Mathlib.Order.Bounds.Defs

/-!
# The adaptive shift

A layer of bytes sums at most as many products as a window has cells, each between `-127 * 2 ^ 7`
and `2 ^ 14`.  With fewer than `2 ^ 17` cells no sum leaves 32 bits (`toInt_accumulated`), and the
adaptive shift is the least one that brings every sum back to about eight: seven places, and as many
as it takes for a power of two not to be less than the number of cells (`exists_shiftFor`).

The shifted sum lies between `-127` and `128` (`shifted_bounds`), so it is an output as it is, but
for `128`, which becomes `127`.  That happens at one input only: a full window of cells that are a
power of two, every sample and every weight being the least byte (`shifted_eq_iff`).
-/

namespace Depthwise

namespace Requant

/-! ### The shift -/

theorem shiftFor_le_iff {k m : ℕ} : shiftFor k ≤ 7 + m ↔ k ≤ 2 ^ m := by
  have hpos : 0 < 2 ^ m := by positivity
  unfold shiftFor
  split
  · omega
  · next hk =>
    have hlog := Nat.log2_lt (n := k - 1) (k := m) (by omega)
    omega

/-- The adaptive shift is seven places more than the least logarithm that is enough. -/
theorem exists_shiftFor (k : ℕ) : ∃ n, shiftFor k = 7 + n ∧ IsLeast {m | k ≤ 2 ^ m} n := by
  have hseven : 7 ≤ shiftFor k := by
    unfold shiftFor
    split <;> omega
  refine ⟨shiftFor k - 7, by omega, shiftFor_le_iff.mp (by omega), fun m hm => ?_⟩
  have hle := shiftFor_le_iff.mpr hm
  omega

/-- Sums of 32 bits are rescaled exactly. -/
theorem toInt_apply_adaptive {k n : ℕ} (h : shiftFor k = 7 + n) (a : Int32) :
    ((adaptive k).apply a.toInt).toInt = clamp (-128) 127 (a.toInt / 2 ^ (7 + n)) := by
  have hone : (adaptive k).multiplier.toInt = 1 := rfl
  have hshift : (adaptive k).shift = 7 + n := h
  rw [toInt_apply, rescale_of_room ((adaptive k).room_int32 a), formula_eq, hone, hshift, mul_one]

end Requant

/-! ### Sums of products of bytes -/

theorem byte_bounds (a : Int8) : -128 ≤ a.toInt ∧ a.toInt ≤ 127 :=
  ⟨a.le_toInt, Int.le_of_lt_add_one a.toInt_lt⟩

/-- A product of bytes is far from its bound unless both are far below zero. -/
theorem two_mul_byte_mul_le (a b : Int8) :
    2 * (a.toInt * b.toInt) ≤ 32512 - a.toInt - b.toInt := by
  obtain ⟨ha, ha'⟩ := byte_bounds a
  obtain ⟨hb, hb'⟩ := byte_bounds b
  have h₁ := mul_nonneg (by omega : 0 ≤ a.toInt + 128) (by omega : 0 ≤ 127 - b.toInt)
  have h₂ := mul_nonneg (by omega : 0 ≤ 127 - a.toInt) (by omega : 0 ≤ b.toInt + 128)
  linarith

theorem byte_mul_bounds (a b : Int8) :
    -16256 ≤ a.toInt * b.toInt ∧ a.toInt * b.toInt ≤ 16384 := by
  obtain ⟨ha, ha'⟩ := byte_bounds a
  obtain ⟨hb, hb'⟩ := byte_bounds b
  have hle := two_mul_byte_mul_le a b
  have h₁ := mul_nonneg (by omega : 0 ≤ a.toInt + 128) (by omega : 0 ≤ b.toInt + 128)
  have h₂ := mul_nonneg (by omega : 0 ≤ 127 - a.toInt) (by omega : 0 ≤ 127 - b.toInt)
  exact ⟨by linarith, by omega⟩

/-- Only the least byte with itself has the greatest product. -/
theorem byte_mul_eq_iff {a b : Int8} : a.toInt * b.toInt = 16384 ↔ a = -128 ∧ b = -128 := by
  constructor
  · intro heq
    have ha := (byte_bounds a).1
    have hb := (byte_bounds b).1
    have hle := two_mul_byte_mul_le a b
    have hleast : (-128 : Int8).toInt = -128 := rfl
    exact ⟨Int8.toInt_inj.mp (by omega), Int8.toInt_inj.mp (by omega)⟩
  · rintro ⟨rfl, rfl⟩
    rfl

/-- The sum of the products of pairs of bytes. -/
def dot (ps : List (Int8 × Int8)) : ℤ := (ps.map fun t => t.1.toInt * t.2.toInt).sum

theorem dot_cons (t : Int8 × Int8) (ps : List (Int8 × Int8)) :
    dot (t :: ps) = t.1.toInt * t.2.toInt + dot ps :=
  List.sum_cons

theorem dot_bounds (ps : List (Int8 × Int8)) :
    -16256 * (ps.length : ℤ) ≤ dot ps ∧ dot ps ≤ 16384 * (ps.length : ℤ) := by
  induction ps with
  | nil => decide
  | cons t ps ih =>
      have ht := byte_mul_bounds t.1 t.2
      rw [dot_cons, List.length_cons]
      push_cast
      omega

/-- A sum is as great as its length admits when all its terms are. -/
theorem dot_eq_iff {ps : List (Int8 × Int8)} :
    dot ps = 16384 * (ps.length : ℤ) ↔ ∀ t ∈ ps, t = (-128, -128) := by
  induction ps with
  | nil => simp [dot]
  | cons t ps ih =>
      have ht := (byte_mul_bounds t.1 t.2).2
      have hps := (dot_bounds ps).2
      have hboth : dot (t :: ps) = 16384 * ((t :: ps).length : ℤ) ↔
          t.1.toInt * t.2.toInt = 16384 ∧ dot ps = 16384 * (ps.length : ℤ) := by
        rw [dot_cons, List.length_cons]
        push_cast
        omega
      rw [hboth, ih, byte_mul_eq_iff, List.forall_mem_cons, Prod.ext_iff]

/-! ### Shifted sums -/

/-- The floor of such a sum after a shift by `7 + n` places. -/
def shifted (n : ℕ) (ps : List (Int8 × Int8)) : ℤ := ⌊(dot ps : ℚ) / 2 ^ (7 + n)⌋

section Shifted

variable {k n : ℕ} {ps : List (Int8 × Int8)}

theorem shifted_eq : shifted n ps = dot ps / 2 ^ (7 + n) := floor_div_two_pow _ _

theorem shifted_bounds (hlen : ps.length ≤ k) (hk : k ≤ 2 ^ n) :
    -127 ≤ shifted n ps ∧ shifted n ps ≤ 128 := by
  have hpow : (ps.length : ℤ) ≤ 2 ^ n := by exact_mod_cast hlen.trans hk
  have hsplit : (2 : ℤ) ^ (7 + n) = 128 * 2 ^ n := by rw [pow_add]; norm_num
  obtain ⟨hlo, hhi⟩ := dot_bounds ps
  rw [shifted_eq, hsplit]
  exact ⟨Int.le_ediv_of_mul_le (by positivity) (by omega),
    Int.ediv_le_of_le_mul (by positivity) (by omega)⟩

/-- Where the shifted sum is not a byte. -/
theorem shifted_eq_iff (hlen : ps.length ≤ k) (hk : k ≤ 2 ^ n) :
    shifted n ps = 128 ↔ k = 2 ^ n ∧ ps.length = k ∧ ∀ t ∈ ps, t = (-128, -128) := by
  have hle := (shifted_bounds hlen hk).2
  have hpow : (k : ℤ) ≤ 2 ^ n := by exact_mod_cast hk
  have hsplit : (2 : ℤ) ^ (7 + n) = 128 * 2 ^ n := by rw [pow_add]; norm_num
  have hge : 128 ≤ shifted n ps ↔ 16384 * 2 ^ n ≤ dot ps := by
    rw [shifted_eq, Int.le_ediv_iff_mul_le (by positivity), hsplit, ← mul_assoc]
    norm_num
  have hmax := (dot_bounds ps).2
  rw [← dot_eq_iff]
  constructor
  · intro heq
    have hdot := hge.mp heq.ge
    have hcast : (k : ℤ) = 2 ^ n := by omega
    exact ⟨by exact_mod_cast hcast, by omega, by omega⟩
  · rintro ⟨hcells, hfull, hdot⟩
    have hcast : (k : ℤ) = 2 ^ n := by exact_mod_cast hcells
    exact le_antisymm hle (hge.mpr (by omega))

end Shifted

/-! ### The layer -/

namespace Config

/-- The accumulator after the products of some pairs. -/
def accumulated {D W P B A O : Type} (cfg : Config D W P B A O) (bias : B) (ps : List (D × W)) :
    A :=
  ps.foldl (fun a t => cfg.accumulator.accumulate a (cfg.product t.1 t.2))
    (cfg.accumulator.seed bias)

theorem slot_eq_accumulated {D W P B A O : Type} (cfg : Config D W P B A O)
    (x : Operands cfg.geometry D W B) (r : Replica cfg.geometry) :
    cfg.slot x r = cfg.accumulated (x.bias r.c r.dm) (x.pairs r) := by
  rw [slot, products_eq_map_pairs, List.foldl_map, accumulated]

/-- Plain products of bytes, summed in 32 bits and rescaled by the adaptive shift for the cells of a
window. -/
def adaptive (g : Geometry) (valid : g.validate = .ok ()) :
    Config Int8 Int8 Int32 Int32 Int32 Int8 where
  geometry := g
  product := plainProduct Int8.toInt32 Int8.toInt32
  accumulator := .native false id id
  cast a := (Requant.adaptive (g.rows.filt * g.cols.filt)).apply a.toInt
  valid := valid

variable {g : Geometry} (valid : g.validate = .ok ())

/-- **No sum leaves 32 bits**, with fewer than `2 ^ 17` products. -/
theorem toInt_accumulated {ps : List (Int8 × Int8)} (h : ps.length < 2 ^ 17) :
    ((adaptive g valid).accumulated 0 ps).toInt = dot ps := by
  have hproduct (t : Int8 × Int8) :
      ((adaptive g valid).product t.1 t.2).toInt = t.1.toInt * t.2.toInt :=
    word_int32.value_plainProduct Int8.toInt_toInt32 Int8.toInt_toInt32
      (Element.abs_toInt?_le (e := .int8) rfl) (Element.abs_toInt?_le (e := .int8) rfl)
      (by decide) t.1 t.2
  have hwraps : (adaptive g valid).accumulator.Wraps 32 Int32.toInt Int32.toInt Int32.toInt :=
    Accumulator.wraps_native word_int32 (fun _ => rfl) (fun _ => rfl) false
  have hdot : ((ps.map fun t => (adaptive g valid).product t.1 t.2).map Int32.toInt).sum =
      dot ps := by
    simp only [List.map_map, Function.comp_def, hproduct, dot]
  obtain ⟨hlo, hhi⟩ := dot_bounds ps
  have hfold := hwraps.foldl_accumulate (ps.map fun t => (adaptive g valid).product t.1 t.2)
    ((adaptive g valid).accumulator.seed 0)
  rw [List.foldl_map, hdot, hwraps.value_seed, Int32.toInt_zero, zero_add] at hfold
  rw [accumulated, hfold]
  exact Int.bmod_eq_of_le_mul_two (by push_cast; omega) (by push_cast; omega)

/-- An output is the shifted sum, clamped above. -/
theorem toInt_cast_adaptive (small : g.rows.filt * g.cols.filt < 2 ^ 17) {n : ℕ}
    (hshift : Requant.shiftFor (g.rows.filt * g.cols.filt) = 7 + n)
    (hcells : g.rows.filt * g.cols.filt ≤ 2 ^ n) {ps : List (Int8 × Int8)}
    (hlen : ps.length ≤ g.rows.filt * g.cols.filt) :
    ((adaptive g valid).cast ((adaptive g valid).accumulated 0 ps)).toInt =
      min (shifted n ps) 127 := by
  have hbounds := shifted_bounds hlen hcells
  show ((Requant.adaptive _).apply ((adaptive g valid).accumulated 0 ps).toInt).toInt = _
  rw [Requant.toInt_apply_adaptive hshift, toInt_accumulated valid (hlen.trans_lt small),
    ← shifted_eq, Requant.clamp]
  omega

/-- **The adaptive shift leaves hardly anything to clamp.**  It is seven places more than the least
logarithm of a power of two not less than the number `K` of cells of a window.  On samples and
weights of eight bits, with biases of zero, the run succeeds.  The accumulator holds the exact sum
after each of the products of a window's cells in the input.  The output is the floor of the whole
sum after the shift, except that `128` becomes `127`; and the floor is `128` only where `K` is that
power of two, the window lies in the input, and its samples and weights all are the least byte.
There are no other outputs. -/
theorem compute_adaptive (small : g.rows.filt * g.cols.filt < 2 ^ 17)
    {input weights : Array Int8} {biases : Array Int32} {output : Array Int8}
    (lens : g.checkOperands input.size weights.size biases.size output.size = .ok ())
    (zero : ∀ b ∈ biases, b = 0) :
    let K := g.rows.filt * g.cols.filt
    let cfg := adaptive g valid
    let run := cfg.compute input weights biases output
    ∃ n, (Requant.adaptive K).shift = 7 + n ∧ IsLeast {m | K ≤ 2 ^ m} n ∧ run.result = .ok () ∧
      (∀ h w c dm, h < g.rows.out → w < g.cols.out → c < g.channels → dm < g.depthMultiplier →
        ∃ ps o, (g.window.filter (g.Covers h w)).mapM (g.operands? input weights h w c dm) =
            some ps ∧
          (∀ qs, qs <+: ps → (cfg.accumulated 0 qs).toInt = dot qs) ∧
          run.output[g.outputOffset h w c dm]? = some o ∧ o = cfg.cast (cfg.accumulated 0 ps) ∧
          -127 ≤ shifted n ps ∧ shifted n ps ≤ 128 ∧ o.toInt = min (shifted n ps) 127 ∧
          (shifted n ps = 128 ↔
            K = 2 ^ n ∧ (∀ k ∈ g.window, g.Covers h w k) ∧ ∀ t ∈ ps, t = (-128, -128))) ∧
      ∀ i < run.output.size, ∃ h w c dm, h < g.rows.out ∧ w < g.cols.out ∧ c < g.channels ∧
        dm < g.depthMultiplier ∧ i = g.outputOffset h w c dm := by
  intro K cfg run
  obtain ⟨n, hshift, hleast⟩ := Requant.exists_shiftFor K
  refine ⟨n, hshift, hleast, ?_, ?_, ?_⟩
  · show (cfg.compute input weights biases output).result = .ok ()
    rw [Config.compute_of_ok cfg lens]
  · intro h w c dm hh hw hc hd
    let x : Operands g Int8 Int8 Int32 := cfg.operands lens
    let r : Replica g := ⟨⟨h, hh⟩, ⟨w, hw⟩, ⟨c, hc⟩, ⟨dm, hd⟩⟩
    have hbias : x.bias r.c r.dm = 0 := zero _ (Array.getElem_mem _)
    have hslot : cfg.slot x r = cfg.accumulated 0 (x.pairs r) := by
      rw [← hbias]
      exact cfg.slot_eq_accumulated x r
    have hwindow : g.window.length = K := g.length_window
    have hlen : (x.pairs r).length ≤ K := hwindow ▸ x.length_pairs_le r
    have hbounds := shifted_bounds hlen hleast.1
    refine ⟨x.pairs r, cfg.cast (cfg.slot x r), x.mapM_operands? r, ?_,
      cfg.getElem?_compute lens r, congrArg cfg.cast hslot, hbounds.1, hbounds.2, ?_, ?_⟩
    · intro qs hqs
      exact toInt_accumulated valid ((hqs.length_le.trans hlen).trans_lt small)
    · rw [hslot]
      exact toInt_cast_adaptive valid small hshift hleast.1 hlen
    · rw [shifted_eq_iff hlen hleast.1, ← x.length_pairs_eq_iff r, hwindow]
  · intro i hi
    rw [cfg.size_compute lens] at hi
    exact Geometry.exists_outputOffset_eq valid hi

end Config

/-! ### A layer of least bytes -/

/-- Two rows and two columns behind one row and one column of padding, with windows of four
cells. -/
def Geometry.cornered : Geometry where
  rows := { input := 2, filt := 2, stride := 1, out := 2, before := 1, after := some 0 }
  cols := { input := 2, filt := 2, stride := 1, out := 2, before := 1, after := some 0 }
  channels := 1
  filters := 1

theorem Geometry.validate_cornered : Geometry.cornered.validate = .ok () := rfl

/-- The shift is by nine places.  Two cells of the window at `(1, 0)` are padding and the sum of the
others is shifted to 64; the window at `(1, 1)` lies in the input, and 128 becomes 127. -/
theorem Config.compute_leastBytes :
    Geometry.cornered.rows.filt * Geometry.cornered.cols.filt < 2 ^ 17 ∧
      Geometry.cornered.checkOperands 4 4 1 4 = .ok () ∧ (∀ b ∈ #[(0 : Int32)], b = 0) ∧
      (Requant.adaptive 4).shift = 9 ∧
      ((adaptive Geometry.cornered Geometry.validate_cornered).compute (Array.replicate 4 (-128))
        (Array.replicate 4 (-128)) #[0] (Array.replicate 4 0)).output[2]? = some 64 ∧
      ((adaptive Geometry.cornered Geometry.validate_cornered).compute (Array.replicate 4 (-128))
        (Array.replicate 4 (-128)) #[0] (Array.replicate 4 0)).output[3]? = some 127 := by
  have lens : Geometry.cornered.checkOperands (Array.replicate 4 (-128 : Int8)).size
      (Array.replicate 4 (-128 : Int8)).size #[(0 : Int32)].size
      (Array.replicate 4 (0 : Int8)).size = .ok () := rfl
  have zero : ∀ b ∈ #[(0 : Int32)], b = 0 := by simp
  obtain ⟨n, hshift, -, -, hout, -⟩ :=
    compute_adaptive Geometry.validate_cornered (by decide) lens zero
  have hnine : (Requant.adaptive 4).shift = 9 := by decide
  obtain rfl : 2 = n := by
    have heq : 9 = 7 + n := hnine.symm.trans hshift
    omega
  refine ⟨by decide, lens, zero, hnine, ?_, ?_⟩
  · obtain ⟨ps, o, hps, -, ho, -, -, -, hvalue, -⟩ :=
      hout 1 0 0 0 (by decide) (by decide) (by decide) (by decide)
    have hpairs : (Geometry.cornered.window.filter (Geometry.cornered.Covers 1 0)).mapM
        (Geometry.cornered.operands? (Array.replicate 4 (-128)) (Array.replicate 4 (-128)) 1 0 0
          0) = some (List.replicate 2 ((-128 : Int8), (-128 : Int8))) := by decide +kernel
    obtain rfl := Option.some.inj (hpairs.symm.trans hps)
    have hsum : shifted 2 (List.replicate 2 (-128, -128)) = 64 := by
      rw [shifted_eq]
      decide
    rw [hsum] at hvalue
    obtain rfl : o = 64 := Int8.toInt_inj.mp hvalue
    exact ho
  · obtain ⟨ps, o, hps, -, ho, -, -, -, hvalue, hclamped⟩ :=
      hout 1 1 0 0 (by decide) (by decide) (by decide) (by decide)
    have hpairs : (Geometry.cornered.window.filter (Geometry.cornered.Covers 1 1)).mapM
        (Geometry.cornered.operands? (Array.replicate 4 (-128)) (Array.replicate 4 (-128)) 1 1 0
          0) = some (List.replicate 4 ((-128 : Int8), (-128 : Int8))) := by decide +kernel
    obtain rfl := Option.some.inj (hpairs.symm.trans hps)
    rw [hclamped.mpr ⟨rfl, by decide, fun t ht => List.eq_of_mem_replicate ht⟩] at hvalue
    obtain rfl : o = 127 := Int8.toInt_inj.mp hvalue
    exact ho

end Depthwise
