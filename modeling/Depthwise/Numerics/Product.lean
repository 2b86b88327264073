import Depthwise.Numerics.Element

/-!
# Products

How a sample and a weight form a product.  Integer products are formed in a wider type, so they are
exact; fixed-point products are exact up to the mantissas' range.  Beside the plain product there
are the encodings of compressed networks, which need no multiplier:

* **binary** operands, `true` for `1` and `false` for `-1`; if both are binary the product counts
  agreement, `1` or `0`;
* **ternary** weights, of which only the sign counts;
* **exponential** weights, signed powers of two.
-/

namespace Depthwise

/-- `p`, or its negative. -/
def signed {P : Type} [Neg P] (positive : Bool) (p : P) : P := if positive then p else -p

/-- The product of two widened operands. -/
def plainProduct {D W P : Type} [Mul P] (f : D → P) (g : W → P) (d : D) (w : W) : P := f d * g w

/-- The sample or its negative, as a binary weight says. -/
def binaryWeightProduct {D P : Type} [Neg P] (f : D → P) (d : D) (w : Bool) : P := signed w (f d)

/-- The weight or its negative, as a binary sample says. -/
def binaryDataProduct {W P : Type} [Neg P] (f : W → P) (d : Bool) (w : W) : P := signed d (f w)

/-- The sample, zero or the negative of the sample, as the sign of the weight says. -/
def ternaryProduct {D P : Type} [Neg P] (zero : P) (f : D → P) (d : D) (w : Int8) : P :=
  if w = 0 then zero else signed (0 < w) (f d)

/-- Whether two binary operands agree. -/
def agreement (d w : Bool) : Int32 := if d = w then 1 else 0

/-- The sample scaled by a signed power of two. -/
def exponentialProduct {D : Type} [Neg D] (scale : D → Int → D) (d : D) (w : SignedPower) : D :=
  signed (!w.negative) (scale d w.exponent.toInt)

/-- The ways to form products. -/
inductive Scheme where
  | plain
  | binaryWeight
  | binaryData
  | ternaryWeight
  | bothBinary
  | exponentialWeight
  deriving DecidableEq, Repr

namespace Scheme

/-- A product with its element type. -/
structure Typed (d w : Element) where
  result : Element
  product : d.Value → w.Value → result.Value

/-- The plain product of two element types. -/
def plain? : (d w : Element) → Option (Typed d w)
  | .single, .single => some ⟨.single, plainProduct id id⟩
  | .double, .double => some ⟨.double, plainProduct id id⟩
  | .int8, .int8 => some ⟨.int32, plainProduct Int8.toInt32 Int8.toInt32⟩
  | .uint8, .int8 => some ⟨.int32, plainProduct (fun d => Int32.ofNat d.toNat) Int8.toInt32⟩
  | .int16, .int16 => some ⟨.int32, plainProduct Int16.toInt32 Int16.toInt32⟩
  | .int32, .int32 => some ⟨.int64, plainProduct Int32.toInt64 Int32.toInt64⟩
  | .fixed, .fixed => some ⟨.fixed, plainProduct id id⟩
  | _, _ => none

/-- The product with a binary weight. -/
def binaryWeight? : (d w : Element) → Option (Typed d w)
  | .single, .bool => some ⟨.single, binaryWeightProduct id⟩
  | .double, .bool => some ⟨.double, binaryWeightProduct id⟩
  | .int8, .bool => some ⟨.int32, binaryWeightProduct Int8.toInt32⟩
  | .int16, .bool => some ⟨.int32, binaryWeightProduct Int16.toInt32⟩
  | .fixed, .bool => some ⟨.fixed, binaryWeightProduct id⟩
  | _, _ => none

/-- The product with a binary sample. -/
def binaryData? : (d w : Element) → Option (Typed d w)
  | .bool, .single => some ⟨.single, binaryDataProduct id⟩
  | .bool, .double => some ⟨.double, binaryDataProduct id⟩
  | .bool, .int8 => some ⟨.int32, binaryDataProduct Int8.toInt32⟩
  | .bool, .int16 => some ⟨.int32, binaryDataProduct Int16.toInt32⟩
  | .bool, .fixed => some ⟨.fixed, binaryDataProduct id⟩
  | _, _ => none

/-- The product with a ternary weight. -/
def ternaryWeight? : (d w : Element) → Option (Typed d w)
  | .single, .int8 => some ⟨.single, ternaryProduct 0 id⟩
  | .double, .int8 => some ⟨.double, ternaryProduct 0 id⟩
  | .int8, .int8 => some ⟨.int32, ternaryProduct 0 Int8.toInt32⟩
  | .int16, .int8 => some ⟨.int32, ternaryProduct 0 Int16.toInt32⟩
  | .fixed, .int8 => some ⟨.fixed, ternaryProduct .zero id⟩
  | _, _ => none

/-- The product with an exponential weight. -/
def exponentialWeight? : (d w : Element) → Option (Typed d w)
  | .single, .power => some ⟨.single, exponentialProduct Binary.scaleFloat32⟩
  | .double, .power => some ⟨.double, exponentialProduct Binary.scaleFloat⟩
  | .fixed, .power => some ⟨.fixed, exponentialProduct Fixed.scale⟩
  | _, _ => none

/-- The product of two element types under a scheme, if the scheme takes them. -/
def product? (s : Scheme) (d w : Element) : Option (Typed d w) :=
  match s with
  | plain => plain? d w
  | binaryWeight => binaryWeight? d w
  | binaryData => binaryData? d w
  | ternaryWeight => ternaryWeight? d w
  | bothBinary =>
    match d, w with
    | .bool, .bool => some ⟨.int32, agreement⟩
    | _, _ => none
  | exponentialWeight => exponentialWeight? d w

end Scheme

end Depthwise
