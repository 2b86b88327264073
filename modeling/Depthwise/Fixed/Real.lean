import Depthwise.Binary
import Depthwise.Fixed.Precision

/-!
# Fixed-point values and floating point

A floating-point number enters a precision through its value with 32 **guard bits** below the last
stored one: what lies beyond them is floored, then the precision stores the result.  An undefined
number counts as zero, and one beyond the mantissas as the nearest mantissa.  A fixed-point value
leaves as the nearest floating-point number of its mantissa, scaled.
-/

namespace Depthwise

/-- The bits kept below the last stored one. -/
def Precision.guardBits : Int := 32

/-- The value of a 64-bit floating-point pattern with the guard bits of `p`. -/
def Precision.guarded (p : Precision) (bits : Nat) : Fixed :=
  let frac := p.frac + guardBits
  let scaled := Binary.double.decode (Binary.double.scale bits frac)
  ⟨scaled.floorWithin Mantissa.least Mantissa.greatest, frac⟩

/-- A floating-point number as the format stores it. -/
def Precision.ofFloat (p : Precision) (x : Float) : Fixed := p.store (p.guarded x.toBits.toNat)

/-- The pattern of the floating-point number of a fixed-point value. -/
def Fixed.floatBits (x : Fixed) : Nat :=
  Binary.double.scale (Binary.double.encode (.ofInt x.raw)) (-x.frac)

/-- The floating-point number of a fixed-point value. -/
def Fixed.toFloat (x : Fixed) : Float := Float.ofBits x.floatBits.toUInt64

/-- The value of the last stored bit. -/
def Precision.epsilon (p : Precision) : Float := (Fixed.mk 1 p.frac).toFloat

end Depthwise
