import Depthwise.Proofs.Exact.Powers
import Depthwise.Proofs.Integer.Machine
import Depthwise.Proofs.Kernel.Interchange
import Depthwise.Proofs.Kernel.Refusals

/-!
# Encoded operands

Compressed networks encode operands of few values: a binary one is `1` or `-1`, a ternary weight is
its sign, an exponential weight a power of two.  `Scheme.decoding?` reads them as operands of the
plain product, and `Scheme.compute_eq_plain` says that the kernel run on them leaves what the plain
kernel leaves when it is run on the operands they stand for.

Every product but one is equal to the plain product, at the bounds of a mantissa too, where the
negative and the product with `-1` saturate alike.  The one is a ternary zero: the scheme adds zero
without fractional bits, the plain product has those of the sample.  A precision stores the same sum
(`Precision.store_add_zero`) as long as the sample is a stored value, of whatever precision.
-/

namespace Depthwise

/-! ### Decoding -/

/-- An integer as a value of an element type that has encoded operands. -/
def Element.ofInt? : (e : Element) → Option (ℤ → e.Value)
  | int8 => some Int8.ofInt
  | int16 => some Int16.ofInt
  | fixed => some Fixed.ofInt
  | _ => none

namespace Scheme

/-- Samples and weights as operands of the plain product. -/
structure Decoding (d w : Element) where
  sampleType : Element
  weightType : Element
  sample : d.Value → sampleType.Value
  weight : w.Value → weightType.Value

/-- What the operands of a scheme stand for. -/
def decoding? : Scheme → (d w : Element) → Option (Decoding d w)
  | binaryWeight, d, .bool => d.ofInt?.map fun ofInt => ⟨d, d, id, fun w => ofInt (signOf w)⟩
  | binaryData, .bool, w => w.ofInt?.map fun ofInt => ⟨w, w, fun d => ofInt (signOf d), id⟩
  | ternaryWeight, d, .int8 => d.ofInt?.map fun ofInt => ⟨d, d, id, fun w => ofInt w.toInt.sign⟩
  | exponentialWeight, .fixed, .power =>
    some ⟨.fixed, .fixed, id, fun w => ⟨signOf (!w.negative), -w.exponent.toInt⟩⟩
  | _, _, _ => none

/-- What is asked of a fixed-point operand: to have a mantissa that is one, and with a ternary
weight to be stored in some precision. -/
def Accepts : Scheme → (e : Element) → e.Value → Prop
  | ternaryWeight, .fixed, x => ∃ p : Precision, p.Stores x
  | _, .fixed, x => Mantissa.Fits x.raw
  | _, _, _ => True

/-- A stored value is accepted under every scheme. -/
theorem accepts_of_stores (s : Scheme) {p : Precision} {x : Fixed} (h : p.Stores x) :
    s.Accepts .fixed x := by
  have hfits : Mantissa.Fits x.raw := Mantissa.fits_of_abs_lt (h.abs_raw_lt.trans (by decide))
  cases s with
  | ternaryWeight => exact ⟨p, h⟩
  | _ => exact hfits

end Scheme

/-! ### The plain product with one and its negative -/

/-- Multiplying with `1` and with `-1` gives `d` and its negative, on either side. -/
structure Units {D P : Type} [Mul P] [Neg P] (f : D → P) (ofInt : ℤ → D) (d : D) : Prop where
  mul_one : f d * f (ofInt 1) = f d
  mul_neg_one : f d * f (ofInt (-1)) = -f d
  one_mul : f (ofInt 1) * f d = f d
  neg_one_mul : f (ofInt (-1)) * f d = -f d

theorem units_int8 (d : Int8) : Units Int8.toInt32 Int8.ofInt d where
  mul_one := Int32.mul_one _
  mul_neg_one := (Int32.mul_neg _ 1).trans (congrArg (-·) (Int32.mul_one _))
  one_mul := Int32.one_mul _
  neg_one_mul := (Int32.neg_mul 1 _).trans (congrArg (-·) (Int32.one_mul _))

theorem units_int16 (d : Int16) : Units Int16.toInt32 Int16.ofInt d where
  mul_one := Int32.mul_one _
  mul_neg_one := (Int32.mul_neg _ 1).trans (congrArg (-·) (Int32.mul_one _))
  one_mul := Int32.one_mul _
  neg_one_mul := (Int32.neg_mul 1 _).trans (congrArg (-·) (Int32.one_mul _))

/-- The negative of a mantissa saturates as its product with `-1` does. -/
theorem units_fixed {d : Fixed} (h : Mantissa.Fits d.raw) :
    Units (id : Fixed → Fixed) Fixed.ofInt d := by
  have hsat : Mantissa.saturate d.raw = d.raw := Mantissa.saturate_of_fits h
  constructor
  · show Fixed.mk (Mantissa.saturate (d.raw * 1)) (d.frac + 0) = d
    rw [mul_one, add_zero, hsat]
  · show Fixed.mk (Mantissa.saturate (d.raw * -1)) (d.frac + 0) = d.neg
    rw [mul_neg_one, add_zero, Fixed.neg]
  · show Fixed.mk (Mantissa.saturate (1 * d.raw)) (0 + d.frac) = d
    rw [one_mul, zero_add, hsat]
  · show Fixed.mk (Mantissa.saturate (-1 * d.raw)) (0 + d.frac) = d.neg
    rw [neg_one_mul, zero_add, Fixed.neg]

namespace Units

variable {D P : Type} [Mul P] [Neg P] {f : D → P} {ofInt : ℤ → D} {d : D}

theorem binaryWeightProduct_eq (h : Units f ofInt d) (w : Bool) :
    binaryWeightProduct f d w = plainProduct f f d (ofInt (signOf w)) := by
  cases w with
  | false => exact h.mul_neg_one.symm
  | true => exact h.mul_one.symm

theorem binaryDataProduct_eq (h : Units f ofInt d) (b : Bool) :
    binaryDataProduct f b d = plainProduct f f (ofInt (signOf b)) d := by
  cases b with
  | false => exact h.neg_one_mul.symm
  | true => exact h.one_mul.symm

/-- The least weight counts as `-1` too. -/
theorem ternaryProduct_eq (h : Units f ofInt d) {w : Int8} (hw : w ≠ 0) (zero : P) :
    ternaryProduct zero f d w = plainProduct f f d (ofInt w.toInt.sign) := by
  rw [ternaryProduct, if_neg hw, ← signOf_pos hw]
  exact h.binaryWeightProduct_eq (0 < w)

theorem ternaryProduct_eq_of_mul_zero (h : Units f ofInt d) {zero : P}
    (hzero : f d * f (ofInt 0) = zero) (w : Int8) :
    ternaryProduct zero f d w = plainProduct f f d (ofInt w.toInt.sign) := by
  by_cases hw : w = 0
  · rw [hw]
    exact hzero.symm
  · exact h.ternaryProduct_eq hw zero

end Units

/-- A power of two moves the point, and so does the plain product with it. -/
theorem exponentialProduct_eq_plain {d : Fixed} (h : Mantissa.Fits d.raw) (w : SignedPower) :
    exponentialProduct Fixed.scale d w =
      plainProduct id id d ⟨signOf (!w.negative), -w.exponent.toInt⟩ := by
  have hsat : Mantissa.saturate d.raw = d.raw := Mantissa.saturate_of_fits h
  unfold exponentialProduct
  cases w.negative with
  | false =>
      show Fixed.mk d.raw (d.frac - w.exponent.toInt) =
        ⟨Mantissa.saturate (d.raw * 1), d.frac + -w.exponent.toInt⟩
      rw [mul_one, hsat, sub_eq_add_neg]
  | true =>
      show Fixed.mk (Mantissa.saturate (-d.raw)) (d.frac - w.exponent.toInt) =
        ⟨Mantissa.saturate (d.raw * -1), d.frac + -w.exponent.toInt⟩
      rw [mul_neg_one, sub_eq_add_neg]

/-! ### A zero of other fractional bits -/

/-- **Adding a zero changes no stored sum**, at any number of fractional bits that a stored value
may have. -/
theorem Precision.store_add_zero {p : Precision} {s : Fixed} (hs : p.Stores s) {frac : ℤ}
    (hge : -32 ≤ frac) (hle : frac ≤ 32) : p.store (s + ⟨0, frac⟩) = s := by
  have hp := p.frac_bounds
  have hfrac := hs.1
  have hzero : (Fixed.mk 0 frac).toRat = 0 := by simp [Fixed.toRat]
  have hsum : s.SumFits ⟨0, frac⟩ :=
    Fixed.sumFits_of_frac (Int.le_sub_one_of_lt hs.abs_raw_lt) (by simp) (by simp only; omega)
      (by simp only; omega)
  rw [store_add_of_sumFits hfrac (by simp only [Rounding.maxShift]; omega) hsum, hzero, add_zero,
    quantize_of_stores hs]

namespace Accumulator

/-- The accumulators of fixed-point products are the precisions. -/
theorem Kind.interchanges_zero {kind : Kind} {bias : Element} {acc : Typed bias .fixed}
    (h : kind.typed? bias .fixed = some acc) {frac : ℤ} (hge : -32 ≤ frac) (hle : frac ≤ 32) :
    acc.accumulator.Interchanges Fixed.zero (⟨0, frac⟩ : Fixed) := by
  cases makes_of_typed? h with
  -- no number type holds every fixed-point value
  | single _ hwiden | double _ hwiden | int32 _ hwiden | int64 _ hwiden => cases hwiden
  | precision p =>
      intro s hs
      have hstored := stores_of_reaches hs
      exact (p.store_add_zero hstored (by decide) (by decide)).trans
        (p.store_add_zero hstored hge hle).symm

end Accumulator

/-! ### The schemes -/

namespace Scheme

variable {s : Scheme} {d w bias : Element} {coded : Typed d w} {dec : Decoding d w}
  {kind : Accumulator.Kind}

/-- Encoded operands have a decoding, in whatever is not floating point. -/
theorem exists_decoding {p : Element} (hs : (d, w, p) ∈ s.signatures) (hplain : s ≠ plain)
    (hboth : s ≠ bothBinary) (hp : p = .int32 ∨ p = .fixed) :
    ∃ dec, s.decoding? d w = some dec := by
  have hrows : ∀ row ∈ s.signatures, row.2.2 = .int32 ∨ row.2.2 = .fixed →
      (s.decoding? row.1 row.2.1).isSome := by
    cases s with
    | plain => exact absurd rfl hplain
    | bothBinary => exact absurd rfl hboth
    | _ => decide
  exact Option.isSome_iff_exists.mp (hrows _ hs hp)

/-- Whatever operands the scheme accepts, their product and the plain product of what they stand for
can be exchanged. -/
def Typed.Decodes (coded : Typed d w) (dec : Decoding d w) (s : Scheme) {B A : Type}
    (acc : Accumulator B coded.result.Value A) : Prop :=
  ∃ product : dec.sampleType.Value → dec.weightType.Value → coded.result.Value,
    plain.product? dec.sampleType dec.weightType = some ⟨coded.result, product⟩ ∧
      ∀ a b, s.Accepts d a → s.Accepts w b →
        acc.Interchanges (coded.product a b) (product (dec.sample a) (dec.weight b))

theorem decodes_binaryWeight? (h : binaryWeight? d w = some coded)
    (hdec : binaryWeight.decoding? d w = some dec) {B A : Type}
    (acc : Accumulator B coded.result.Value A) : coded.Decodes dec binaryWeight acc := by
  unfold binaryWeight? at h
  split at h
  · cases hdec
  · cases hdec
  · cases h; cases hdec
    exact ⟨_, rfl, fun a b _ _ => .of_eq ((units_int8 a).binaryWeightProduct_eq b)⟩
  · cases h; cases hdec
    exact ⟨_, rfl, fun a b _ _ => .of_eq ((units_int16 a).binaryWeightProduct_eq b)⟩
  · cases h; cases hdec
    exact ⟨_, rfl, fun a b ha _ => .of_eq ((units_fixed ha).binaryWeightProduct_eq b)⟩
  · cases h

theorem decodes_binaryData? (h : binaryData? d w = some coded)
    (hdec : binaryData.decoding? d w = some dec) {B A : Type}
    (acc : Accumulator B coded.result.Value A) : coded.Decodes dec binaryData acc := by
  unfold binaryData? at h
  split at h
  · cases hdec
  · cases hdec
  · cases h; cases hdec
    exact ⟨_, rfl, fun a b _ _ => .of_eq ((units_int8 b).binaryDataProduct_eq a)⟩
  · cases h; cases hdec
    exact ⟨_, rfl, fun a b _ _ => .of_eq ((units_int16 b).binaryDataProduct_eq a)⟩
  · cases h; cases hdec
    exact ⟨_, rfl, fun a b _ hb => .of_eq ((units_fixed hb).binaryDataProduct_eq a)⟩
  · cases h

theorem decodes_exponentialWeight? (h : exponentialWeight? d w = some coded)
    (hdec : exponentialWeight.decoding? d w = some dec) {B A : Type}
    (acc : Accumulator B coded.result.Value A) : coded.Decodes dec exponentialWeight acc := by
  unfold exponentialWeight? at h
  split at h
  · cases hdec
  · cases hdec
  · cases h; cases hdec
    exact ⟨_, rfl, fun a b ha _ => .of_eq (exponentialProduct_eq_plain ha b)⟩
  · cases h

theorem decodes_ternaryWeight? (h : ternaryWeight? d w = some coded)
    (hdec : ternaryWeight.decoding? d w = some dec) {acc : Accumulator.Typed bias coded.result}
    (hacc : kind.typed? bias coded.result = some acc) :
    coded.Decodes dec ternaryWeight acc.accumulator := by
  unfold ternaryWeight? at h
  split at h
  · cases hdec
  · cases hdec
  · cases h; cases hdec
    have hzero (a : Int8) : a.toInt32 * (Int8.ofInt 0).toInt32 = 0 := Int32.mul_zero
    exact ⟨_, rfl, fun a b _ _ =>
      .of_eq ((units_int8 a).ternaryProduct_eq_of_mul_zero (hzero a) b)⟩
  · cases h; cases hdec
    have hzero (a : Int16) : a.toInt32 * (Int16.ofInt 0).toInt32 = 0 := Int32.mul_zero
    exact ⟨_, rfl, fun a b _ _ =>
      .of_eq ((units_int16 a).ternaryProduct_eq_of_mul_zero (hzero a) b)⟩
  · cases h; cases hdec
    refine ⟨_, rfl, fun a b ⟨p, ha⟩ _ => ?_⟩
    by_cases hb : b = 0
    · -- the plain product is a zero with the fractional bits of the sample
      have hmul : (a : Fixed) * Fixed.ofInt 0 = ⟨0, p.frac⟩ := by
        show Fixed.mk (Mantissa.saturate (a.raw * 0)) (a.frac + 0) = _
        rw [mul_zero, Mantissa.saturate_of_fits (by decide), add_zero, ha.1]
      have hzero := Accumulator.Kind.interchanges_zero hacc p.frac_bounds.1 p.frac_bounds.2
      rw [← hmul] at hzero
      rw [hb]
      exact hzero
    · have hfits : Mantissa.Fits a.raw := accepts_of_stores binaryWeight ha
      exact .of_eq ((units_fixed hfits).ternaryProduct_eq hb _)
  · cases h

/-- The kernel takes either product of operands that have a decoding. -/
theorem decodes_product? (h : s.product? d w = some coded) (hdec : s.decoding? d w = some dec)
    {acc : Accumulator.Typed bias coded.result}
    (hacc : kind.typed? bias coded.result = some acc) :
    coded.Decodes dec s acc.accumulator := by
  cases s with
  | plain => cases hdec
  | binaryWeight => exact decodes_binaryWeight? h hdec _
  | binaryData => exact decodes_binaryData? h hdec _
  | ternaryWeight => exact decodes_ternaryWeight? h hdec hacc
  | bothBinary => cases hdec
  | exponentialWeight => exact decodes_exponentialWeight? h hdec _

/-- **A compressed layer is the plain one on the operands it stands for.**  Every encoding of whole
numbers and of fixed-point ones has a product and a decoding, and the types its operands are decoded
to have a plain product of the same type.  With any accumulator, any cast and any valid geometry,
whatever the biases are, the run on the encoded operands succeeds as soon as the buffers have their
lengths, and it is the run of the plain kernel on the decoded ones: the same output, element by
element, and the same record. -/
theorem compute_eq_plain {p a : Element} (hs : (d, w, p) ∈ s.signatures) (hplain : s ≠ plain)
    (hboth : s ≠ bothBinary) (hp : p = .int32 ∨ p = .fixed) (hadmits : kind.Admits bias p a) :
    ∃ (coded : d.Value → w.Value → p.Value) (dec : Decoding d w)
      (product : dec.sampleType.Value → dec.weightType.Value → p.Value)
      (acc : Accumulator bias.Value p.Value a.Value),
      s.product? d w = some ⟨p, coded⟩ ∧ s.decoding? d w = some dec ∧
        plain.product? dec.sampleType dec.weightType = some ⟨p, product⟩ ∧
        kind.typed? bias p = some ⟨a, acc⟩ ∧
        ∀ {O : Type} (cast : a.Value → O) {g : Geometry} (valid : g.validate = .ok ())
          {input : Array d.Value} {weights : Array w.Value} {biases : Array bias.Value}
          {output : Array O},
          (∀ x ∈ input, s.Accepts d x) → (∀ y ∈ weights, s.Accepts w y) →
          g.checkOperands input.size weights.size biases.size output.size = .ok () →
          let run := Config.compute ⟨g, coded, acc, cast, valid⟩ input weights biases output
          run.result = .ok () ∧
            run = Config.compute ⟨g, product, acc, cast, valid⟩ (input.map dec.sample)
              (weights.map dec.weight) biases output := by
  obtain ⟨coded, hcoded⟩ := exists_product?_iff.mpr hs
  obtain ⟨dec, hdec⟩ := exists_decoding hs hplain hboth hp
  obtain ⟨acc, hacc⟩ := Accumulator.Kind.exists_typed?_iff.mpr hadmits
  obtain ⟨product, hproduct, hdecodes⟩ := decodes_product? hcoded hdec hacc
  refine ⟨coded, dec, product, acc, hcoded, hdec, hproduct, hacc, ?_⟩
  intro O cast g valid input weights biases output hinput hweights lens
  let cfg : Config d.Value w.Value p.Value bias.Value a.Value O := ⟨g, coded, acc, cast, valid⟩
  refine ⟨?_, ?_⟩
  · exact (cfg.result_compute input weights biases output).trans lens
  · exact cfg.compute_of_interchanges fun x hx y hy =>
      hdecodes x y (hinput x hx) (hweights y hy)

end Scheme

/-! ### A strip of signs -/

/-- One row of three columns under one window. -/
def Geometry.strip : Geometry where
  rows := { input := 1, filt := 1, stride := 1, out := 1, before := 0, after := some 0 }
  cols := { input := 3, filt := 3, stride := 1, out := 1, before := 0, after := some 0 }
  channels := 1
  filters := 1

theorem Geometry.validate_strip : Geometry.strip.validate = .ok () := rfl

/-- That layer with a product of fixed-point samples, summed in bytes. -/
def Config.strip {W : Type} (product : Fixed → W → Fixed) :
    Config Fixed W Fixed Fixed Fixed Fixed where
  geometry := Geometry.strip
  product := product
  accumulator := .stored Precision.bytes
  cast := id
  valid := Geometry.validate_strip

/-- The samples `-3.5`, `2.5` and `3` with the weights `-128`, `0` and `1` and the bias `1`, the sum
being rounded down to a whole number at every step. -/
theorem Config.compute_strip :
    let input : Array Fixed := #[⟨-7, 1⟩, ⟨5, 1⟩, ⟨6, 1⟩]
    (.fixed, .int8, .fixed) ∈ Scheme.ternaryWeight.signatures ∧
      Geometry.strip.checkOperands 3 3 1 1 = .ok () ∧
      (∀ a ∈ input, Precision.symmetricHalves.Stores a) ∧
      ((Config.strip (ternaryProduct .zero id)).compute input #[-128, 0, 1] #[⟨1, 0⟩]
        #[.zero]).output = #[⟨7, 0⟩] ∧
      ((Config.strip (plainProduct id id)).compute input #[⟨-1, 0⟩, ⟨0, 0⟩, ⟨1, 0⟩] #[⟨1, 0⟩]
        #[.zero]).output = #[⟨7, 0⟩] := by
  intro input
  have lens : Geometry.strip.checkOperands 3 3 1 1 = .ok () := rfl
  have hstores : ∀ a ∈ input, Precision.symmetricHalves.Stores a := by decide
  have hs : (.fixed, .int8, .fixed) ∈ Scheme.ternaryWeight.signatures := by decide
  obtain ⟨coded, dec, product, acc, hcoded, hdec, hproduct, hacc, hrun⟩ :=
    Scheme.compute_eq_plain hs (by decide) (by decide) (.inr rfl) (.precision Precision.bytes)
  cases hcoded
  cases hdec
  cases hproduct
  cases hacc
  obtain ⟨-, heq⟩ := @hrun Fixed id Geometry.strip Geometry.validate_strip input #[-128, 0, 1]
    #[⟨1, 0⟩] #[.zero] (fun a ha => ⟨_, hstores a ha⟩) (fun _ _ => trivial) lens
  have hweights : (#[-128, 0, 1] : Array Int8).map (fun w => Fixed.ofInt w.toInt.sign) =
      #[⟨-1, 0⟩, ⟨0, 0⟩, ⟨1, 0⟩] := by decide +kernel
  simp only [Array.map_id, hweights] at heq
  have hsum : ((Config.strip (ternaryProduct .zero id)).compute input #[-128, 0, 1] #[⟨1, 0⟩]
      #[.zero]).output = #[⟨7, 0⟩] := by decide +kernel
  exact ⟨hs, lens, hstores, hsum, (congrArg Run.output heq).symm.trans hsum⟩

end Depthwise
