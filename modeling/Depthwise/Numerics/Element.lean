import Depthwise.Fixed.Real

/-!
# Element types

The types that samples, weights, biases, products, accumulators and outputs may have, by name, and
the **widenings** between them: the conversions that keep every value exactly.
-/

namespace Depthwise

/-- A weight that is a signed power of two. -/
structure SignedPower where
  negative : Bool
  exponent : Int8
  deriving DecidableEq

/-- The name of an element type. -/
inductive Element where
  | single
  | double
  | int8
  | uint8
  | int16
  | int32
  | int64
  | bool
  | fixed
  | power
  deriving DecidableEq, Repr

namespace Element

/-- The values of an element type. -/
@[reducible] def Value : Element → Type
  | single => Float32
  | double => Float
  | int8 => Int8
  | uint8 => UInt8
  | int16 => Int16
  | int32 => Int32
  | int64 => Int64
  | bool => Bool
  | fixed => Fixed
  | power => SignedPower

/-- The value a fresh buffer holds. -/
def zero : (e : Element) → e.Value
  | single => 0
  | double => 0
  | int8 => 0
  | uint8 => 0
  | int16 => 0
  | int32 => 0
  | int64 => 0
  | bool => false
  | fixed => Fixed.zero
  | power => ⟨false, 0⟩

/-- The integer a value of an integer type or a truth value stands for. -/
def toInt? : (e : Element) → Option (e.Value → Int)
  | int8 => some Int8.toInt
  | uint8 => some fun n => n.toNat
  | int16 => some Int16.toInt
  | int32 => some Int32.toInt
  | int64 => some Int64.toInt
  | bool => some fun b => if b then 1 else 0
  | _ => none

/-- The number of bits a value of an integer type may need, its sign included. -/
def bits : Element → Nat
  | int8 => 8
  | uint8 => 9
  | int16 => 16
  | int32 => 32
  | int64 => 64
  | bool => 2
  | _ => 0

/-- The widening of one element type into another, if the second holds every value of the first. -/
def widen? (src dst : Element) : Option (src.Value → dst.Value) :=
  if h : src = dst then some (h ▸ id)
  else match src, dst with
    | single, double => some Float32.toFloat
    | src, int16 => if src.bits < 16 then (src.toInt?).map (Int16.ofInt ∘ ·) else none
    | src, int32 => if src.bits < 32 then (src.toInt?).map (Int32.ofInt ∘ ·) else none
    | src, int64 => if src.bits < 64 then (src.toInt?).map (Int64.ofInt ∘ ·) else none
    | src, single =>
      if src.bits ≤ 16 then (src.toInt?).map fun f x => Binary.toFloat32 (.ofInt (f x)) else none
    | src, double =>
      if src.bits ≤ 32 then (src.toInt?).map fun f x => Binary.toFloat (.ofInt (f x)) else none
    | _, _ => none

end Element

end Depthwise
