import Depthwise.Numerics.Element

/-!
# Accumulators

How a bias seeds an output slot and how products are summed into it.  An integer accumulator wraps
on overflow, so the order of its terms is free; a floating-point one rounds after every term, and a
precision rounds and resolves overflow after every term, so theirs is not.
-/

namespace Depthwise

/-- An accumulator of products `P` into values `A`, seeded by biases `B`. -/
structure Accumulator (B P A : Type) where
  seed : B → A
  accumulate : A → P → A
  /-- The result may depend on the order of the products. -/
  orderSensitive : Bool

namespace Accumulator

/-- Sums in a number type, biases and products being widened into it. -/
def native {B P A : Type} [Add A] (orderSensitive : Bool) (f : B → A) (g : P → A) :
    Accumulator B P A :=
  ⟨f, fun a p => a + g p, orderSensitive⟩

/-- Exact sums stored in a precision after every term. -/
def stored (p : Precision) : Accumulator Fixed Fixed Fixed :=
  ⟨p.store, fun a x => p.store (a + x), true⟩

/-- The values after the seed and after each product. -/
def run {B P A : Type} (acc : Accumulator B P A) (bias : B) (products : List P) : List A :=
  go (acc.seed bias) products
where
  go (a : A) : List P → List A
    | [] => [a]
    | p :: ps => a :: go (acc.accumulate a p) ps

/-- The accumulators by name. -/
inductive Kind where
  | number (e : Element)
  | precision (p : Precision)
  deriving DecidableEq, Repr

/-- Whether the order of the products matters. -/
def Kind.orderSensitive : Kind → Bool
  | .number .int32 => false
  | .number .int64 => false
  | _ => true

/-- An accumulator with the element type of its values. -/
structure Typed (bias product : Element) where
  result : Element
  accumulator : Accumulator bias.Value product.Value result.Value

/-- The accumulator of that kind for two element types, if both widen into it. -/
def Kind.typed? (k : Kind) (bias product : Element) : Option (Typed bias product) :=
  match k with
  | .number .single => do
    return ⟨.single, native true (← bias.widen? .single) (← product.widen? .single)⟩
  | .number .double => do
    return ⟨.double, native true (← bias.widen? .double) (← product.widen? .double)⟩
  | .number .int32 => do
    return ⟨.int32, native false (← bias.widen? .int32) (← product.widen? .int32)⟩
  | .number .int64 => do
    return ⟨.int64, native false (← bias.widen? .int64) (← product.widen? .int64)⟩
  | .number _ => none
  | .precision p =>
    match bias, product with
    | .fixed, .fixed => some ⟨.fixed, stored p⟩
    | _, _ => none

end Accumulator

end Depthwise
