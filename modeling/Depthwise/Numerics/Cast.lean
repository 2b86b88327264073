import Depthwise.Numerics.Element

/-!
# Casts

How a finished accumulator becomes an output.  A cast never fails: it keeps the accumulator, stores
it in a precision, or **requantizes** an integer to eight bits, multiplying, shifting right with the
floor, and clamping.  The product saturates at 64 bits and a shift by more than 63 places counts as
63.
-/

namespace Depthwise

-- Powers are those of the core library, whatever else is imported.
attribute [local instance (high)] instPowNat

/-- A rescaling of integer accumulators to eight bits. -/
structure Requant where
  multiplier : Int32
  shift : Nat
  deriving DecidableEq

namespace Requant

/-- The integer in `[lo, hi]` that is nearest to `n`. -/
def clamp (lo hi n : Int) : Int := max lo (min n hi)

/-- The eight-bit value of an accumulator, as an integer. -/
def rescale (q : Requant) (acc : Int) : Int :=
  let product := clamp (-2 ^ (63 : Nat)) (2 ^ (63 : Nat) - 1) (acc * q.multiplier.toInt)
  clamp (-128) 127 (product / 2 ^ min q.shift 63)

/-- The eight-bit value of an accumulator. -/
def apply (q : Requant) (acc : Int) : Int8 := Int8.ofInt (q.rescale acc)

/-- Clamping alone. -/
def saturate : Requant := ⟨1, 0⟩

/-- The shift that brings a sum of `k` products of eight-bit numbers back to about eight bits:
seven places more than the logarithm of `k`, rounded up. -/
def shiftFor (k : Nat) : Nat := if k ≤ 1 then 7 else (k - 1).log2 + 1 + 7

/-- The rescaling for sums of `k` products. -/
def adaptive (k : Nat) : Requant := ⟨1, shiftFor k⟩

end Requant

namespace Cast

/-- The casts by name. -/
inductive Kind where
  | keep
  | requant (q : Requant)
  | precision (p : Precision)
  deriving DecidableEq

/-- A cast with the element type of its outputs. -/
structure Typed (acc : Element) where
  result : Element
  cast : acc.Value → result.Value

/-- The cast of that kind for an element type, if there is one. -/
def Kind.typed? (k : Kind) (acc : Element) : Option (Typed acc) :=
  match k with
  | .keep => some ⟨acc, id⟩
  | .requant q =>
    match acc with
    | .int32 => some ⟨.int8, fun a => q.apply a.toInt⟩
    | .int64 => some ⟨.int8, fun a => q.apply a.toInt⟩
    | _ => none
  | .precision p =>
    match acc with
    | .fixed => some ⟨.fixed, p.store⟩
    | _ => none

end Cast

end Depthwise
